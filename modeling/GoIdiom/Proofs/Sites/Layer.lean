import GoIdiom.Proofs.Sites.Tokens

/-!
# Sites of constructs

A site is a place that a finding on a construct may stand at. Sites come in layers: the beginnings of the
constructs of one kind make a layer, and so do the names that are declared, the parts of functions and types,
the returns without values, and the calls together with the results that are dropped. Constructs of several
kinds may begin at one place, but within a layer every site is a token of its own.
-/

namespace GoIdiom

/-- A choice of sites at constructs. -/
inductive Layer where
  | kind (k : ConstructKind)
  | name
  | part
  | leave
  | value
deriving DecidableEq, Repr

namespace Layer

/-- The sites of a construct in a layer. -/
def sites (layer : Layer) (c : Construct) : List Position :=
  match layer, c.detail with
  | .kind k, detail => if k = detail.kind then [c.pos] else []
  | .name, .global g => g.names.map (·.2)
  | .name, .function _ => [c.pos]
  | .name, .struct _ => [c.pos]
  | .name, .interface _ => [c.pos]
  | .name, .type _ => [c.pos]
  | .part, .function f => f.receiver.toList.map (·.pos) ++ (f.params.map (·.pos) ++ f.results.map (·.pos))
  | .part, .struct s => s.fields.map (·.pos)
  | .part, .go g => g.params.map (·.pos)
  | .leave, .function f => f.nakedReturns
  | .value, .call _ => [c.pos]
  | .value, .errorIgnored _ => [c.pos]
  | _, _ => []

/-- How many sites of constructs are at a place. -/
def countAt (layer : Layer) (p : Position) (cs : List Construct) : Nat := (cs.flatMap layer.sites).count p

/-- The kinds of constructs that have no site but their beginning, in the layer of their kind. -/
def plainKinds : List ConstructKind :=
  [.file, .package, .imported, .testFunction, .defer, .loop, .select, .channelMake, .errorCheck, .errorReturn,
   .errorConstruct, .errorCompare]

variable {layer : Layer} {p : Position}

/-- Without constructs there are no sites. -/
theorem countAt_nil : layer.countAt p [] = 0 := rfl

/-- The sites of the first construct are counted with the others. -/
theorem countAt_cons (c : Construct) (cs : List Construct) :
    layer.countAt p (c :: cs) = (layer.sites c).count p + layer.countAt p cs := by
  rw [countAt, List.flatMap_cons, List.count_append]
  rfl

/-- The sites of two lists of constructs are counted in each. -/
theorem countAt_append (cs ds : List Construct) :
    layer.countAt p (cs ++ ds) = layer.countAt p cs + layer.countAt p ds := by
  rw [countAt, List.flatMap_append, List.count_append]
  rfl

/-- The site of a construct in the layer of a kind. -/
theorem sites_kind (k : ConstructKind) (c : Construct) :
    (kind k).sites c = if k = c.kind then [c.pos] else [] := rfl

/-- A construct has its beginning for a site, in the layer of its kind. -/
theorem mem_sites_kind {c : Construct} {k : ConstructKind} (h : c.kind = k) : c.pos ∈ (kind k).sites c := by
  rw [sites_kind, if_pos h.symm]
  exact List.mem_singleton_self c.pos

/-- A construct of a plain kind has no other site. -/
theorem sites_of_plain {path : String} {pos : Position} {endLine : Nat} {detail : Detail}
    (h : detail.kind ∈ plainKinds) :
    layer.sites ⟨path, pos, endLine, detail⟩ = if layer = .kind detail.kind then [pos] else [] := by
  cases layer with
  | kind k =>
    simp only [Layer.kind.injEq]
    rfl
  | _ =>
    rw [if_neg (by simp)]
    cases detail <;> first | rfl | simp [Detail.kind, plainKinds] at h

/-- A construct of a plain kind has at most one site, its beginning. -/
theorem count_sites_le {c : Construct} (h : c.kind ∈ plainKinds) :
    (layer.sites c).count p ≤ [c.pos].count p := by
  have hsites : layer.sites c = if layer = .kind c.kind then [c.pos] else [] := sites_of_plain h
  rw [hsites]
  split
  · exact Nat.le_refl _
  · exact Nat.zero_le _

end Layer

end GoIdiom
