-- SUMMARY: Adding the types that a module defines to its table, and checking the types of tables, memories and globals.
import TreeWasm.Wasm.Validation.Context

/-!
# Checking definitions

The types of a recursive group may refer to types before the group and to each other, and may be
declared to be below types that come before them. Declared ones must fit what they are below.
-/

namespace TreeWasm.Wasm.Validation

/-! ## Types -/

/-- A reference inside a group of `n` types from the index `start` on. -/
def inGroup (c : Context) (start n : Nat) : HeapType → Except Cause HeapType
  | .defined index =>
    if start ≤ index.toNat ∧ index.toNat < start + n then .ok (.defined (index - .ofNat start))
    else do
      let first ← orFault (c.types.first? index.toNat) (.unknown .type index.toNat)
      return .defined (.ofNat (first + n))
  | h => c.resolveHeap h

/-- The member of a group that gets the given index, with its references inside the group. -/
def memberOf (c : Context) (n index : Nat) (t : SubType) : Except Cause SubType :=
  match t.super? with
  | some (.defined above) =>
    if index ≤ above.toNat then .error .superBehindSub else t.mapHeapM (inGroup c c.types.size n)
  | _ => t.mapHeapM (inGroup c c.types.size n)

/-- The most types there may be above one. -/
def maxDepth : Nat := 63

/-- The type at an index may be below the type that it is declared to be below. -/
def checkSuper (types : Types) (index : Nat) : Except Cause Unit :=
  match types.super? index with
  | none => .ok ()
  | some above => do
    let a ← orFault (types.subType? index) (.unknown .type index)
    let b ← orFault (types.subType? above) (.unknown .type above)
    if b.isFinal then throw .superIsFinal
    else if !types.fits a.composite b.composite then throw .superUnfit
    else
      let depth := types.depth types.size index
      if maxDepth < depth then throw (.superTooDeep depth)

/-- Add the types of a group. -/
def addGroup (c : Context) (group : List (Nat × SubType)) : Except Fault Context := do
  let start := c.types.size
  let members ← group.zipIdx.mapM fun ((offset, t), i) =>
    located offset (memberOf c group.length (start + i) t)
  let types := c.types ++ ((List.range group.length).map (Definition.mk members)).toArray
  for ((offset, _), i) in group.zipIdx do
    located offset (checkSuper types (start + i))
  return { c with types }

/-! ## Tables, memories and globals -/

def checkLimits (l : Limits) : Except Cause Unit :=
  match l.most? with
  | some most => if most < l.least then .error .minimumAboveMaximum else .ok ()
  | none => .ok ()

/-- The most entries a table may start with. -/
def maxTableSize : Nat := 10000000

/-- The type of a table, with what its elements point to by the first index. -/
def checkTable (c : Context) (t : TableType) : Except Cause TableType := do
  let element ← c.resolveRef t.element
  if t.limits.isShared then throw (.sharedUnsupported "tables")
  checkLimits t.limits
  if maxTableSize < t.limits.least then throw .tableTooLarge
  else return { t with element }

/-- The most pages a memory may have, and how that limit is called. -/
def maxPages (isWide : Bool) : Nat × String :=
  if isWide then (0x1000000000000, "2**48 pages") else (0x10000, "65536 pages (4GiB)")

def checkMemory (t : MemoryType) : Except Cause Unit := do
  checkLimits t.limits
  if t.pageSize?.isSome then throw .customPageSize
  let (most, title) := maxPages t.limits.isWide
  if most < t.limits.least ∨ most < t.limits.most?.getD 0 then throw (.memoryTooLarge title)
  else if t.limits.isShared ∧ t.limits.most?.isNone then throw .sharedWithoutMaximum

def checkGlobal (c : Context) (t : GlobalType) : Except Cause GlobalType := do
  let value ← c.resolve t.value
  if t.isShared then throw (.sharedUnsupported "globals") else return { t with value }

/-- A tag has a function type without results. -/
def checkTag (c : Context) (type : Nat) : Except Cause FuncType := do
  let arrow ← c.declaredArrow type
  if arrow.results.isEmpty then return arrow else throw .tagWithResults

end TreeWasm.Wasm.Validation
