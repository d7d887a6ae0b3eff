-- SUMMARY: Checking the entries of sections, each in turn.
import TreeWasm.Wasm.Framing
import TreeWasm.Wasm.Validation.Code
import TreeWasm.Wasm.Validation.Definitions

/-!
# Checking sections

An entry is read to its end and then checked against what the module has said before it. A fault in
what it means lies where the entry starts.
-/

namespace TreeWasm.Wasm.Validation

/-! ## Summaries -/

/-- What the sections before a point have said. -/
structure Summary extends Context where
  /-- The number of functions that are imported, which have no code. -/
  imported : Nat := 0
  exportNames : List String := []
  /-- The weight of the types that imports and exports use. -/
  weight : Nat := 1
  /-- The code entries seen so far, the last one first. -/
  pending : List Cursor := []
deriving Repr, Inhabited

namespace Summary

/-- The weight that the types of imports and exports may not reach. -/
def maxWeight : Nat := 1000000

/-- Count the use of a type. -/
def weigh (s : Summary) (weight : Nat) : Except Cause Summary :=
  if s.weight + weight < maxWeight then .ok { s with weight := s.weight + weight }
  else .error .typesTooLarge

/-- The weight of the type of a function. -/
def arrowWeight (t : FuncType) : Nat := (Composite.func t).weight

/-- Go on with what an entry adds to the context. -/
def within (s : Summary) (c : Context) : Summary := { s with toContext := c }

end Summary

/-- Put a cause where the entry starts. -/
def judge (start : Nat) (r : Except Cause α) : Reader α := located start r

/-! ## Types and functions -/

def typeEntry (s : Summary) : Reader Summary := do
  return s.within (← addGroup s.toContext (← Reader.group))

def functionEntry (s : Summary) : Reader Summary := do
  let start ← Reader.offset
  let index ← Reader.u32
  let _ ← judge start (s.declaredArrow index)
  return { s with functions := s.functions.push index }

/-! ## Imports and exports -/

/-- The most tables and the most memories a module may have. -/
def maxStores : Nat := 100

/-- There are at most `limit` things of a kind. -/
def checkCount (what : String) (limit count : Nat) : Except Cause Unit :=
  if limit < count then .error (.countOutOfBounds what limit) else .ok ()

/-- The kind of an import or export, by its code. -/
def externalKind : Reader Space := do
  let start ← Reader.offset
  let b ← Reader.byte
  match [Space.func, .table, .memory, .global, .tag][b.toNat]? with
  | some kind => return kind
  | none => Reader.fail (.unexpectedByte b.toNat "external kind") start

def importEntry (s : Summary) : Reader Summary := do
  let start ← Reader.offset
  let _ ← Reader.name
  let _ ← Reader.name
  match ← externalKind with
  | .table =>
    let type ← Reader.tableType
    let type ← judge start (checkTable s.toContext type)
    judge start (checkCount "tables" maxStores (s.tables.size + 1))
    judge start ({ s with tables := s.tables.push type }.weigh 1)
  | .memory =>
    let type ← Reader.memoryType
    judge start (checkMemory type)
    judge start (checkCount "memories" maxStores (s.memories.size + 1))
    judge start ({ s with memories := s.memories.push type }.weigh 1)
  | .global =>
    let type ← Reader.globalType
    let type ← judge start (checkGlobal s.toContext type)
    judge start (checkCount "globals" Reader.maxEntries (s.globals.size + 1))
    judge start ({ s with globals := s.globals.push type }.weigh 1)
  | .tag =>
    let type ← Reader.tagType
    let arrow ← judge start (checkTag s.toContext type)
    judge start (checkCount "tags" Reader.maxEntries (s.tags.size + 1))
    judge start ({ s with tags := s.tags.push type }.weigh (Summary.arrowWeight arrow))
  | _ =>
    let type ← Reader.u32
    let arrow ← judge start (s.declaredArrow type)
    judge start (checkCount "functions" Reader.maxEntries (s.functions.size + 1))
    let s := { s with functions := s.functions.push type, imported := s.imported + 1 }
    judge start (s.weigh (Summary.arrowWeight arrow))

/-- The thing that an export names exists. Gives back the weight of its type. -/
def exported (s : Summary) (kind : Space) (index : Nat) : Except Cause Nat := do
  let missing := Cause.unknownExported kind index
  match kind with
  | .func =>
    return Summary.arrowWeight (← s.declaredArrow (← orFault s.functions[index]? missing))
  | .tag => return Summary.arrowWeight (← s.declaredArrow (← orFault s.tags[index]? missing))
  | .table =>
    let _ ← orFault s.tables[index]? missing
    return 1
  | .memory =>
    let _ ← orFault s.memories[index]? missing
    return 1
  | _ =>
    let _ ← orFault s.globals[index]? missing
    return 1

/-- A name is exported once. -/
def addExport (s : Summary) (name : String) : Except Cause Summary :=
  if name ∈ s.exportNames then .error (.duplicateExport name)
  else .ok { s with exportNames := name :: s.exportNames }

def exportEntry (s : Summary) : Reader Summary := do
  let start ← Reader.offset
  let name ← Reader.name
  let kind ← externalKind
  let index ← Reader.u32
  let weight ← judge start (exported s kind index)
  let referable := if kind = .func then index :: s.referable else s.referable
  let s ← judge start ({ s with referable }.weigh weight)
  judge start (addExport s name)

/-! ## Tables, memories, globals and tags -/

/-- A table with its type and the value that its entries start with. -/
def tableWithValue : Reader (TableType × Option Cursor) := do
  if (← Reader.peek) = 0x40 then
    let _ ← Reader.byte
    let second ← Reader.offset
    if (← Reader.byte) ≠ 0 then Reader.fail (.malformed .tableEncoding) second
    else return (← Reader.tableType, some (← initialValue))
  else return (← Reader.tableType, none)

def tableEntry (s : Summary) : Reader Summary := do
  let start ← Reader.offset
  let (type, value?) ← tableWithValue
  let type ← judge start (checkTable s.toContext type)
  match value? with
  | none =>
    if type.element.nullable then return { s with tables := s.tables.push type }
    else Reader.fail .elementNotDefaultable start
  | some value =>
    let c ← checkInitial s.toContext (.ref type.element) value
    return s.within { c with tables := c.tables.push type }

def memoryEntry (s : Summary) : Reader Summary := do
  let start ← Reader.offset
  let type ← Reader.memoryType
  judge start (checkMemory type)
  return { s with memories := s.memories.push type }

def globalEntry (s : Summary) : Reader Summary := do
  let start ← Reader.offset
  let type ← Reader.globalType
  let value ← initialValue
  let type ← judge start (checkGlobal s.toContext type)
  let c ← checkInitial s.toContext type.value value
  return s.within { c with globals := c.globals.push type }

def tagEntry (s : Summary) : Reader Summary := do
  let start ← Reader.offset
  let type ← Reader.tagType
  let _ ← judge start (checkTag s.toContext type)
  return { s with tags := s.tags.push type }

/-! ## Segments -/

/-- The elements of a segment: functions, or initial values of a type. -/
inductive Elements where
  | functions (indices : List (Nat × Nat))
  | values (type : RefType) (values : List Cursor)
deriving Repr, Inhabited

/-- The type of the elements of a segment, if it is spelled out. -/
def elementType (flags : Nat) : Reader RefType := do
  if flags % 4 = 0 then return ⟨true, .of .func⟩
  else if 4 ≤ flags then Reader.refType
  else
    match ← externalKind with
    | .func => return ⟨true, .of .func⟩
    | _ => Reader.fail .elementsNotFunctions ((← Reader.offset) - 1)

/-- An element segment: the table it is copied to at the start, if there is one, with the place in
it, and the elements. -/
def elementSegment : Reader (Option (Nat × Cursor) × Elements) := do
  let flags ← Reader.u32
  if 8 ≤ flags then Reader.fail (.malformed .elementFlags) ((← Reader.offset) - 1)
  else
    let active? ← if flags % 2 = 1 then pure none
      else
        let table ← if flags / 2 % 2 = 1 then Reader.u32 else pure 0
        pure (some (table, ← initialValue))
    let type ← elementType flags
    let count ← Reader.u32
    if 4 ≤ flags then return (active?, .values type (← Reader.times initialValue count))
    else return (active?, .functions (← Reader.times (Reader.located Reader.u32) count))

/-- The elements of an active segment fit its table. -/
def checkActive (s : Summary) (start : Nat) (element : RefType) (table : Nat) (place : Cursor) :
    Except Fault Context := do
  let t ← located start (s.table table)
  if s.types.isSubRef element t.element then checkInitial s.toContext t.limits.addressType place
  else throw ⟨.elementUnfit (.ref element) (.ref t.element), start⟩

/-- Check the elements of a segment one by one. -/
def checkElements (c : Context) (start : Nat) : Elements → Except Fault Context
  | .functions indices => do
    if maxTableSize < indices.length then throw ⟨.tooManyElements, start⟩
    indices.foldlM (fun c (offset, index) => do
      let _ ← located offset (c.declaredFunction index)
      return { c with referable := index :: c.referable }) c
  | .values type values => do
    if maxTableSize < values.length then throw ⟨.tooManyElements, start⟩
    values.foldlM (fun c value => checkInitial c (.ref type) value) c

def elementEntry (s : Summary) : Reader Summary := do
  let start ← Reader.offset
  let (active?, elements) ← elementSegment
  let (element, elements) ← match elements with
    | .functions indices => pure ((⟨false, .of .func⟩ : RefType), Elements.functions indices)
    | .values type values => do
      let type ← judge start (s.resolveRef type)
      pure (type, Elements.values type values)
  let c ← match active? with
    | some (table, place) => checkActive s start element table place
    | none => pure s.toContext
  let c ← checkElements c start elements
  return s.within { c with elements := c.elements.push element }

def dataEntry (s : Summary) : Reader Summary := do
  let start ← Reader.offset
  let flags ← Reader.u32
  if flags = 1 then
    let _ ← Reader.sized
    return s
  else if flags = 0 ∨ flags = 2 then
    let memory ← if flags = 0 then pure 0 else Reader.u32
    let place ← initialValue
    let _ ← Reader.sized
    let type ← judge start (orFault s.memories[memory]? (.unknown .memory memory))
    return s.within (← checkInitial s.toContext type.limits.addressType place)
  else Reader.fail (.malformed .dataFlags) start

/-! ## Sections -/

/-- The most segments a module may have of a kind. -/
def maxSegments : Nat := 100000

/-- How the entries of a section are called in total, how many there may be, how many there are
already, and how one of them is checked. -/
def entriesOf (s : Summary) : Section → String × Nat × Nat × (Summary → Reader Summary)
  | .types => ("types", Reader.maxEntries, s.types.size, typeEntry)
  | .imports => ("imports", Reader.maxEntries, 0, importEntry)
  | .functions => ("functions", Reader.maxEntries, s.functions.size, functionEntry)
  | .tables => ("tables", maxStores, s.tables.size, tableEntry)
  | .memories => ("memories", maxStores, s.memories.size, memoryEntry)
  | .tags => ("tags", Reader.maxEntries, s.tags.size, tagEntry)
  | .globals => ("globals", Reader.maxEntries, s.globals.size, globalEntry)
  | .exports => ("exports", Reader.maxEntries, s.exportNames.length, exportEntry)
  | .elements => ("element segments", maxSegments, s.elements.size, elementEntry)
  | .data => ("data segments", maxSegments, 0, dataEntry)
  | .start | .dataCount | .code => ("entries", 0, 0, pure)

/-- Check the entries of a section. -/
def checkEntries (kind : Section) (start count : Nat) (contents : Cursor) (s : Summary) :
    Except Fault Summary := do
  let (what, limit, present, entry) := entriesOf s kind
  located start (checkCount what limit (present + count))
  Reader.whole (foldEntries entry count s) contents

/-- Check a section that holds one number. -/
def checkNumber (kind : Section) (value : Nat) (s : Summary) : Except Cause Summary := do
  match kind with
  | .start =>
    let arrow ← s.declaredFunction value
    if arrow.params.isEmpty ∧ arrow.results.isEmpty then return s else throw .startNotVoid
  | _ =>
    if maxSegments < value then throw .tooManySegments
    else return { s with dataCount? := some value }

end TreeWasm.Wasm.Validation
