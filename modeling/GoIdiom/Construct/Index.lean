import GoIdiom.Construct

/-!
# Looking up declarations of a file

Rules that relate constructs look up functions, methods and types of the same file by name. Of
functions and methods with one name the first counts, of struct types the last.
-/

namespace GoIdiom

/-- A function or method with the place of its declaration. -/
structure Declared where
  info : FunctionInfo
  pos : Position
deriving DecidableEq, Repr

/-- The declarations of a file. -/
structure ConstructIndex where
  package : Option String
  interfaces : List InterfaceInfo
  structs : List StructInfo
  functions : List Declared
  methods : List (String × Declared)
deriving DecidableEq, Repr

namespace ConstructIndex

/-- The package that a construct names. -/
def packageOf (c : Construct) : Option String :=
  match c.detail with
  | .package name _ => some name
  | _ => none

/-- The interface that a construct declares. -/
def interfaceOf (c : Construct) : Option InterfaceInfo :=
  match c.detail with
  | .interface info => some info
  | _ => none

/-- The struct that a construct declares. -/
def structOf (c : Construct) : Option StructInfo :=
  match c.detail with
  | .struct info => some info
  | _ => none

/-- The function that a construct declares. -/
def functionOf (c : Construct) : Option Declared :=
  match c.detail with
  | .function info => some ⟨info, c.pos⟩
  | _ => none

/-- The index of the constructs of a file. -/
def ofConstructs (constructs : List Construct) : ConstructIndex :=
  let declared := constructs.filterMap functionOf
  let isFunction (d : Declared) : Bool := d.info.receiver.isNone
  let methods := declared.filterMap fun d => d.info.receiver.map fun r => (r.typeName, d)
  { package := constructs.findSome? packageOf
    interfaces := constructs.filterMap interfaceOf
    structs := constructs.filterMap structOf
    functions := (declared.filter isFunction).eraseDupsBy fun a b => a.info.name == b.info.name
    methods := methods.eraseDupsBy fun a b => a.1 == b.1 && a.2.info.name == b.2.info.name }

/-- Whether the file declares an interface of this name. -/
def hasInterface (index : ConstructIndex) (name : String) : Bool := index.interfaces.any (·.name == name)

/-- The struct of this name. -/
def struct? (index : ConstructIndex) (name : String) : Option StructInfo :=
  (index.structs.filter (·.name == name)).getLast?

/-- The function of this name. -/
def function? (index : ConstructIndex) (name : String) : Option FunctionInfo :=
  (index.functions.find? (·.info.name == name)).map (·.info)

/-- The method of this type and name. -/
def method? (index : ConstructIndex) (type name : String) : Option FunctionInfo :=
  (index.methods.find? fun m => m.1 == type && m.2.info.name == name).map (·.2.info)

/-- The methods of a type by line. -/
def methodsOf (index : ConstructIndex) (type : String) : List Declared :=
  ((index.methods.filter (·.1 == type)).map (·.2)).mergeSort fun a b => a.pos.line ≤ b.pos.line

end ConstructIndex

end GoIdiom
