import GoIdiom.Proofs.Lexing.Positions
import GoIdiom.Proofs.ReadingFaults
import GoIdiom.Proofs.Sites.Declarations
import Mathlib.Data.List.Nodup

/-!
# Sites of constructs in files

In every file that is read the sites of a layer are distinct: each of them is a token of its own, and tokens stand
behind one another. In particular no two constructs of one kind begin at one place.
-/

namespace GoIdiom

variable {layer : Layer} {p : Position}

/-! ## Constructs that are no files -/

/-- The constructs in bodies are no files. -/
theorem Body.kind_ne_file {file : FileInfo} {all : List Token} {c : Construct} (h : Emits file all c) :
    c.kind ≠ .file := by
  cases h with
  | plain ctx place kind literals _ hc =>
    cases kind with
    | go =>
      obtain rfl := List.mem_singleton.mp hc
      exact ne_of_beq_false rfl
    | defer =>
      obtain rfl := List.mem_singleton.mp hc
      exact ne_of_beq_false rfl
    | «return» =>
      change c ∈ (returnTrace file ctx place.pos _).constructs at hc
      rw [returnTrace] at hc
      dsimp only at hc
      split at hc
      · cases hc
      · rw [(of_errorReturn? (Option.mem_toList.mp hc)).1]
        exact ne_of_beq_false rfl
    | simple =>
      obtain ⟨_, _, _, _, _, -, -, -, rfl⟩ := of_ignored? (Option.mem_toList.mp hc)
      exact ne_of_beq_false rfl
    | _ => cases hc
  | special ctx _ _ hdetail =>
    intro hkind
    have hmem := kind_special hdetail
    rw [show Detail.kind _ = .file from hkind] at hmem
    exact absurd hmem (by decide)
  | comparison ctx _ hc =>
    obtain ⟨_, _, hinfo⟩ := List.mem_filterMap.mp hc
    obtain ⟨info, -, rfl⟩ := Option.map_eq_some_iff.mp hinfo
    exact ne_of_beq_false rfl
  | _ => exact ne_of_beq_false rfl

/-- The constructs of declarations are no files. -/
theorem Declaration.kind_ne_file {file : FileInfo} {all : List Token} {c : Construct} (h : Emits file all c) :
    c.kind ≠ .file := by
  cases h with
  | type first last typeParams isAlias type =>
    change (typeDetail first.text typeParams isAlias type).kind ≠ .file
    rw [typeDetail]
    split <;> exact ne_of_beq_false rfl
  | body h => exact Body.kind_ne_file h
  | _ => exact ne_of_beq_false rfl

/-- When the sites of every kind are distinct, no two constructs of one kind begin at one place. -/
theorem Layer.kinds_nodup {cs : List Construct} (h : ∀ k, (cs.flatMap (Layer.kind k).sites).Nodup) :
    (cs.map fun c => (c.kind, c.pos.line, c.pos.col)).Nodup := by
  induction cs with
  | nil => exact List.nodup_nil
  | cons c rest ih =>
    have hcons (k : ConstructKind) : ((Layer.kind k).sites c ++ rest.flatMap (Layer.kind k).sites).Nodup := h k
    refine List.nodup_cons.mpr ⟨fun hmem => ?_, ih fun k => (List.nodup_append.mp (hcons k)).2.1⟩
    obtain ⟨d, hd, heq⟩ := List.mem_map.mp hmem
    rw [Prod.mk.injEq, Prod.mk.injEq, ← Position.eq_iff] at heq
    obtain ⟨hkind, hpos⟩ := heq
    have hfirst : c.pos ∈ (Layer.kind c.kind).sites c := Layer.mem_sites_kind rfl
    have hsecond : d.pos ∈ rest.flatMap (Layer.kind c.kind).sites :=
      List.mem_flatMap.mpr ⟨d, hd, Layer.mem_sites_kind hkind⟩
    exact (List.nodup_append.mp (hcons c.kind)).2.2 _ hfirst _ hsecond hpos.symm

namespace SourceFile

variable {source path : String} {file : SourceFile}

variable (layer p) in
/-- The sites of a package clause and of the declarations after it. -/
theorem countAt_readTokens (path : String) (ts : List Token) :
    Outcome (fun r => layer.countAt p r.2 ≤ Token.countAt p ts) (fun _ => True) (readTokens path ts) := by
  have hstart : Token.countAt p (ts.dropWhile (·.isSemi)) ≤ Token.countAt p ts :=
    Token.countAt_le_of_sublist (List.dropWhile_sublist _)
  unfold readTokens
  cases Token.matchBrackets ts with
  | error e => exact .error trivial
  | ok pairs =>
    dsimp only [Declaration.ofSource, Except.mapError, bind, Except.bind]
    split
    · exact .error trivial
    · next keyword rest hkeyword =>
      rw [hkeyword, Token.countAt_cons] at hstart
      split
      · exact .error trivial
      · split
        · exact .error trivial
        · next name rest =>
          rw [Token.countAt_cons] at hstart
          split
          · exact .error trivial
          · have hlist := Declaration.takes_list layer p ⟨path, isTestPath path, name.text⟩ rest
            refine hlist.bind fun found hfound => .ok ?_
            have hclause :
                (layer.sites ⟨path, name.pos, name.line, .package name.text (isTestPath path)⟩).count p ≤
                  [name.pos].count p :=
              Layer.count_sites_le (by decide : ConstructKind.package ∈ Layer.plainKinds)
            rw [Layer.countAt_cons]
            omega

/-- The constructs of a package are no files. -/
theorem kind_ne_file_of_readTokens {ts : List Token} {package : String} {constructs : List Construct}
    (h : readTokens path ts = .ok (package, constructs)) : ∀ c ∈ constructs, c.kind ≠ .file := by
  have hpackage := (h ▸ emitsPackage_readTokens path ts).of_ok
  generalize hr : (package, constructs) = r at hpackage
  cases hpackage with
  | mk name _ hfound =>
    obtain ⟨rfl, rfl⟩ := Prod.mk.inj hr
    exact List.forall_mem_cons.mpr ⟨ne_of_beq_false rfl, fun c hc => Declaration.kind_ne_file (hfound c hc)⟩

/-- No two tokens of a source stand at one place. -/
theorem tokens_nodup {lexed : Lexed} (h : tokenize source = .ok lexed) : (lexed.tokens.map (·.pos)).Nodup := by
  rw [List.Nodup, List.pairwise_map]
  exact (tokens_increasing h).imp Position.ne_of_before

/-- No two sites of a layer in a file are at one place. -/
theorem sites_nodup (h : read source path = .ok file) (layer : Layer) :
    (file.constructs.flatMap layer.sites).Nodup := by
  obtain ⟨lexed, package, constructs, hlexed, hread, rfl⟩ := read_eq_ok_iff.mp h
  rw [List.nodup_iff_count_le_one]
  intro p
  have htokens := List.nodup_iff_count_le_one.mp (tokens_nodup hlexed) p
  have hconstructs := (hread ▸ countAt_readTokens layer p path lexed.tokens).of_ok
  change layer.countAt p (_ :: constructs) ≤ 1
  have hfile : layer.sites ⟨path, .start, max (countLines source.toList) 1,
      .file (countLines source.toList) (isTestPath path) package⟩ = if layer = .kind .file then
        [.start] else [] :=
    Layer.sites_of_plain (by decide : ConstructKind.file ∈ Layer.plainKinds)
  rw [Layer.countAt_cons, hfile]
  split
  · next hlayer =>
    -- The file itself begins where its first token may stand, but no other construct is a file.
    have hnone : layer.countAt p constructs = 0 := by
      rw [Layer.countAt, List.count_eq_zero, List.mem_flatMap]
      rintro ⟨c, hc, hp⟩
      rw [hlayer, Layer.sites_kind, if_neg (kind_ne_file_of_readTokens hread c hc).symm] at hp
      exact List.not_mem_nil hp
    rw [hnone, List.count_singleton]
    split <;> omega
  · rw [List.count_nil, Nat.zero_add]
    exact hconstructs.trans htokens

/-- No two constructs of one kind in a file begin at one place. -/
theorem kinds_nodup (h : read source path = .ok file) :
    (file.constructs.map fun c => (c.kind, c.pos.line, c.pos.col)).Nodup :=
  Layer.kinds_nodup fun k => sites_nodup h (.kind k)

end SourceFile

end GoIdiom
