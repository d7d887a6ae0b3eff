-- SUMMARY: The types that a module defines, when two of them are the same, and which values may stand where others are due.
import TreeWasm.Wasm.SubType

/-!
# Type tables

Types are the same if their groups are the same and they stand at the same position in them. A
table therefore keeps each type as a position in a group. Inside a group of `n` types the indices
below `n` are positions in it, and `n` more than an index is the type with that index, the first of
those that are the same, so that equal groups are equal as data.

`Types.isBelow` and what follows from it say which values may stand where others are due. They
compare references by the first index of what they point to, as `Context.resolveHeap` gives it.
-/

namespace TreeWasm.Wasm

/-- A type as a position in a recursive group. A type that was defined alone is a group of one. -/
structure Definition where
  group : List SubType
  position : Nat
deriving DecidableEq, Repr, Inhabited

abbrev Types : Type := Array Definition

namespace Types

/-! ## Look-up -/

/-- The first index of a type. -/
def first? (types : Types) (index : Nat) : Option Nat := do
  let d ← types[index]?
  types.findIdx? (· == d)

/-- What a type refers to, seen from outside its group of `n` types, which starts at `start`. -/
def outside (types : Types) (start n : Nat) : HeapType → Option HeapType
  | .defined index =>
    if index.toNat < n then (types.first? (start + index.toNat)).map (.defined <| .ofNat ·)
    else some (.defined (index - .ofNat n))
  | h => some h

def subType? (types : Types) (index : Nat) : Option SubType := do
  let d ← types[index]?
  let t ← d.group[d.position]?
  t.mapHeapM (types.outside (index - d.position) d.group.length)

def composite? (types : Types) (index : Nat) : Option Composite :=
  (types.subType? index).map (·.composite)

/-! ## Below -/

/-- The type above a type, by its first index. -/
def super? (types : Types) (index : Nat) : Option Nat := do
  match (← types.subType? index).super? with
  | some (.defined above) => return above.toNat
  | _ => none

/-- The number of types above a type, if there are at most `fuel`. -/
def depth (types : Types) : Nat → Nat → Nat
  | 0, _ => 0
  | fuel + 1, index =>
    match types.super? index with
    | some above => types.depth fuel above + 1
    | none => 0

/-- The type `above` is the type itself or one of the `fuel` types above it. -/
def reaches (types : Types) (above : Nat) : Nat → Nat → Bool
  | 0, index => index == above
  | fuel + 1, index =>
    index == above ||
      match types.super? index with
      | some next => types.reaches above fuel next
      | none => false

/-- The kinds of things that values of a defined type are. -/
def kinds : Composite → List HeapKind
  | .func _ => [.func]
  | .struct _ => [.struct, .eq, .any]
  | .array _ => [.array, .eq, .any]

/-- The kind that is below all defined types of some sort. -/
def bottom : Composite → HeapKind
  | .func _ => .noFunc
  | .struct _ | .array _ => .noAny

/-- The kinds that are above one, itself aside. -/
def above : HeapKind → List HeapKind
  | .eq => [.any]
  | .i31 | .struct | .array => [.eq, .any]
  | .noAny => [.i31, .struct, .array, .eq, .any]
  | .noFunc => [.func]
  | .noHost => [.host]
  | .noExn => [.exn]
  | .noCont => [.cont]
  | _ => []

/-- What is of the first heap type is also of the second. -/
def isBelow (types : Types) (a b : HeapType) : Bool :=
  a == b ||
    match a, b with
    | .defined i, .defined j => types.reaches j.toNat types.size i.toNat
    | .defined i, .kind k false =>
      ((types.composite? i.toNat).map (kinds ·|>.contains k)).getD false
    | .kind k false, .defined j => (types.composite? j.toNat).map bottom == some k
    | .kind a isShared, .kind b isShared' => isShared == isShared' && (above a).contains b
    | _, _ => false

def isSubRef (types : Types) (a b : RefType) : Bool :=
  (!a.nullable || b.nullable) && types.isBelow a.heap b.heap

/-- A value of the first type may stand where one of the second is due. -/
def isSubtype (types : Types) (a b : ValType) : Bool :=
  a == b ||
    match a.ref?, b.ref? with
    | some a, some b => types.isSubRef a b
    | _, _ => false

theorem isSubtype_refl (types : Types) (t : ValType) : types.isSubtype t t = true := by
  simp [isSubtype]

/-- Only references stand where something else is due. -/
theorem isSubtype_plain {types : Types} {a b : ValType} (h : b.ref? = none) :
    types.isSubtype a b = true ↔ a = b := by
  simp only [isSubtype, h, Bool.or_eq_true, beq_iff_eq, or_iff_left_iff_imp]
  cases a.ref? <;> simp

/-! ## Matching definitions -/

/-- A list of types fits another one, member by member. -/
def areSubtypes (types : Types) (as bs : List ValType) : Bool :=
  as.length == bs.length && (as.zip bs).all fun (a, b) => types.isSubtype a b

def isSubStorage (types : Types) : Storage → Storage → Bool
  | .value a, .value b => types.isSubtype a b
  | a, b => a == b

/-- A field that can be changed holds neither more nor less than the other. -/
def isSubField (types : Types) (a b : Field) : Bool :=
  a.isMutable == b.isMutable && types.isSubStorage a.storage b.storage &&
    (!b.isMutable || types.isSubStorage b.storage a.storage)

/-- The first definition may be declared to be below the second. -/
def fits (types : Types) : Composite → Composite → Bool
  | .func a, .func b => types.areSubtypes b.params a.params && types.areSubtypes a.results b.results
  | .struct as, .struct bs =>
    bs.length ≤ as.length && (as.zip bs).all fun (a, b) => types.isSubField a b
  | .array a, .array b => types.isSubField a b
  | _, _ => false

end Types

end TreeWasm.Wasm
