-- SUMMARY: What can be wrong with a binary module, where, and how it is said.
import TreeWasm.Wasm.SubType

/-!
# Faults

A fault is a cause and the offset of the byte it was found at. `Cause.message` has the wording.
-/

namespace TreeWasm.Wasm

/-- The things of a module that have indices of their own. -/
inductive Space where
  | type
  | func
  | table
  | memory
  | global
  | tag
  | localSlot
  | element
deriving DecidableEq, Repr, Inhabited

/-- The parts of a binary that have one spelling or a few, and no other. -/
inductive Spelling where
  | sectionId
  | text
  | valueType
  | heapType
  | functionType
  | mutability
  | fieldMutability
  | memoryLimits
  | tableLimits
  | tableEncoding
  | tagAttributes
  | elementFlags
  | dataFlags
  | alignment
  | fence
  | castFlags (flags : Nat)
  | ordering (code : Nat)
deriving DecidableEq, Repr, Inhabited

/-- What is wrong with a binary. -/
inductive Cause where
  -- the bytes
  | unexpectedEnd
  | badMagic (found : List UInt8)
  | unknownVersion (version : Nat)
  | integerTooLong (type : String)
  | integerTooLarge (type : String)
  | stringTooLong
  | malformed (part : Spelling)
  | sizeOutOfBounds (what : String)
  | unexpectedByte (byte : Nat) (what : String)
  | illegalOpcode (code : Nat)
  | illegalSubcode (lead code : Nat)
  -- the framing
  | unknownSection (id : Nat)
  | sectionOutOfOrder
  | sectionSizeMismatch
  | contentBehindItem (what : String)
  | trailingBytes
  | inconsistentCodes
  | missingCodes
  | missingFunctions
  | inconsistentData
  | missingData
  -- the sections
  | countOutOfBounds (what : String) (limit : Nat)
  | unknown (space : Space) (index : Nat)
  /-- An export of something that is not there. -/
  | unknownExported (space : Space) (index : Nat)
  | duplicateExport (name : String)
  | typesTooLarge
  | notFunctionType (index : Nat)
  | superBehindSub
  | superIsFinal
  | superUnfit
  | superTooDeep (depth : Nat)
  | unsupported (reason : String)
  | sharedUnsupported (what : String)
  | customPageSize
  | minimumAboveMaximum
  | tableTooLarge
  | memoryTooLarge (limit : String)
  | sharedWithoutMaximum
  | elementNotDefaultable
  | elementUnfit (element table : ValType)
  | elementsNotFunctions
  | tooManyElements
  | tooManySegments
  | startNotVoid
  | tagWithResults
  -- initial values
  | notConstant (operator : String)
  | mutableConstant
  -- the bodies
  | tooManyLocals
  | uninitializedLocal (index : Nat)
  | unknownLabel
  | unknownTypeHere
  | unknownData (index : Nat)
  | unknownMemoryHere (index : Nat)
  | unknownFunctionHere (index : Nat)
  | unknownGlobalHere
  | unknownField
  | notTypeOf (kind : String) (index : Nat) (found : SubType)
  | mismatch (expected found : ValType)
  | mismatchUnknownRef (expected : ValType)
  | nothingOnStack (expected : Option ValType)
  | valuesRemaining
  | notReference (found : ValType)
  /-- The types of something do not fit for a reason of its own. -/
  | unfit (reason : String)
  | badResultArity
  | alternativeOutsideCond
  | handlerOutsideFrame (operator : String)
  | operatorsAfterEnd
  | missingEnd
  | immutableGlobal
  | alignmentTooLarge
  | alignmentNotExact
  | offsetTooLarge
  | laneOutOfBounds
  | missingDataCount
  | undeclaredReference
  | disabled (feature : String)
deriving DecidableEq, Repr, Inhabited

structure Fault where
  cause : Cause
  offset : Nat
deriving DecidableEq, Repr, Inhabited

/-! ## Wording -/

/-- A number in base sixteen behind the mark of that base. -/
def hex (n : Nat) : String := "0x" ++ String.ofList (Nat.toDigits 16 n)

/-- Bytes as a bracketed column. -/
def byteColumn (bytes : List UInt8) : String :=
  "[\n" ++ String.join (bytes.map fun b => "    " ++ hex b.toNat ++ ",\n") ++ "]"

/-- A text behind as many fillers as it lacks of a width. -/
def padLeft (filler : Char) (width : Nat) (s : String) : String :=
  String.ofList (List.replicate (width - s.length) filler) ++ s

def magic : List UInt8 := [0x00, 0x61, 0x73, 0x6d]

/-- How a thing with an index is called, and how that index is called. -/
def Space.titles : Space → String × String
  | .type => ("type", "type")
  | .func => ("function", "func")
  | .table => ("table", "table")
  | .memory => ("memory", "memory")
  | .global => ("global", "global")
  | .tag => ("tag", "tag")
  | .localSlot => ("local", "local")
  | .element => ("elem segment", "segment")

def Spelling.message : Spelling → String
  | .sectionId => "malformed section id"
  | .text => "malformed UTF-8 encoding"
  | .valueType => "invalid value type"
  | .heapType => "invalid abstract heap type"
  | .functionType => "invalid function type"
  | .mutability => "malformed mutability"
  | .fieldMutability => "invalid mutability byte for field type"
  | .memoryLimits => "invalid memory limits flags"
  | .tableLimits => "invalid table resizable limits flags"
  | .tableEncoding => "invalid table encoding"
  | .tagAttributes => "invalid tag attributes"
  | .elementFlags => "invalid flags byte in element segment"
  | .dataFlags => "invalid flags byte in data segment"
  | .alignment => "malformed memop alignment: alignment too large"
  | .fence => "nonzero byte after `atomic.fence`"
  | .castFlags flags =>
    "invalid cast flags: " ++ padLeft '0' 8 (String.ofList (Nat.toDigits 2 flags))
  | .ordering code => "invalid atomic consistency ordering " ++ toString code

def Cause.message : Cause → String
  | .unexpectedEnd => "unexpected end-of-file"
  | .badMagic found =>
    "magic header not detected: bad magic number - expected=" ++ byteColumn magic ++
      " actual=" ++ byteColumn found
  | .unknownVersion version => "unknown binary version: " ++ padLeft ' ' 10 (hex version)
  | .integerTooLong type => "invalid " ++ type ++ ": integer representation too long"
  | .integerTooLarge type => "invalid " ++ type ++ ": integer too large"
  | .stringTooLong => "string size out of bounds"
  | .malformed part => part.message
  | .sizeOutOfBounds what => what ++ " size is out of bounds"
  | .unexpectedByte byte what => "invalid leading byte (" ++ hex byte ++ ") for " ++ what
  | .illegalOpcode code => "illegal opcode: " ++ hex code
  | .illegalSubcode lead code => "unknown " ++ hex lead ++ " subopcode: " ++ hex code
  | .unknownSection id => "malformed section id: " ++ toString id
  | .sectionOutOfOrder => "section out of order"
  | .sectionSizeMismatch => "section size mismatch: unexpected data at the end of the section"
  | .contentBehindItem what => "unexpected content in the " ++ what ++ " section"
  | .trailingBytes => "trailing bytes at end of section"
  | .inconsistentCodes => "function and code section have inconsistent lengths"
  | .missingCodes => "function section has non-zero count but code section is absent"
  | .missingFunctions => "function section is absent but code section has non-zero count"
  | .inconsistentData => "data count and data section have inconsistent lengths"
  | .missingData => "data count is non-zero but data section is absent"
  | .countOutOfBounds what limit => what ++ " count exceeds limit of " ++ toString limit
  | .unknown space index =>
    let (title, indexTitle) := space.titles
    "unknown " ++ title ++ " " ++ toString index ++ ": " ++ indexTitle ++ " index out of bounds"
  | .unknownExported space index =>
    let (title, _) := space.titles
    "unknown " ++ title ++ " " ++ toString index ++ ": exported " ++ title ++ " index out of bounds"
  | .duplicateExport name => "duplicate export name `" ++ name ++ "` already defined"
  | .typesTooLarge => "effective type size exceeds the limit of 1000000"
  | .notFunctionType index => "type index " ++ toString index ++ " is not a function type"
  | .superBehindSub => "supertypes must be defined before subtypes"
  | .superIsFinal => "sub type cannot have a final super type"
  | .superUnfit => "sub type must match super type"
  | .superTooDeep depth =>
    "sub type hierarchy too deep: found depth " ++ toString depth ++ ", cannot exceed depth 63"
  | .unsupported reason => reason
  | .sharedUnsupported what =>
    "shared " ++ what ++ " require the shared-everything-threads proposal"
  | .customPageSize =>
    "the custom page sizes proposal must be enabled to customize a memory's page size"
  | .minimumAboveMaximum => "size minimum must not be greater than maximum"
  | .tableTooLarge => "minimum table size is out of bounds"
  | .memoryTooLarge limit => "memory size must be at most " ++ limit
  | .sharedWithoutMaximum => "shared memory must have maximum size"
  | .elementNotDefaultable => "type mismatch: non-defaultable element type"
  | .elementUnfit element table =>
    "type mismatch: invalid element type `" ++ element.name ++ "` for table type `" ++ table.name ++
      "`"
  | .elementsNotFunctions => "only the function external type is supported in elem segment"
  | .tooManyElements => "number of elements is out of bounds"
  | .tooManySegments => "data count section specifies too many data segments"
  | .startNotVoid => "invalid start function type"
  | .tagWithResults => "invalid exception type: non-empty tag result type"
  | .notConstant operator => "constant expression required: non-constant operator: " ++ operator
  | .mutableConstant => "constant expression required: global.get of mutable global"
  | .tooManyLocals => "too many locals: locals exceed maximum"
  | .uninitializedLocal index => "uninitialized local: " ++ toString index
  | .unknownLabel => "unknown label: branch depth too large"
  | .unknownTypeHere => "unknown type: type index out of bounds"
  | .unknownData index => "unknown data segment " ++ toString index
  | .unknownMemoryHere index => "unknown memory " ++ toString index
  | .unknownFunctionHere index =>
    "unknown function " ++ toString index ++ ": function index out of bounds"
  | .unknownGlobalHere => "unknown global: global index out of bounds"
  | .unknownField => "unknown field: field index out of bounds"
  | .notTypeOf kind index found =>
    "expected " ++ kind ++ " type at index " ++ toString index ++ ", found " ++ found.outline
  | .mismatch expected found =>
    "type mismatch: expected " ++ expected.name ++ ", found " ++ found.name
  | .mismatchUnknownRef expected =>
    "type mismatch: expected " ++ expected.name ++ ", found heap type"
  | .nothingOnStack expected =>
    "type mismatch: expected " ++ (expected.map (·.name)).getD "a type" ++ " but nothing on stack"
  | .valuesRemaining => "type mismatch: values remaining on stack at end of block"
  | .notReference found => "type mismatch: expected ref but found " ++ found.name
  | .unfit reason => reason
  | .badResultArity => "invalid result arity"
  | .alternativeOutsideCond => "`else` found outside `If` block"
  | .handlerOutsideFrame operator => "`" ++ operator ++ "` found outside `LegacyTry` block"
  | .operatorsAfterEnd => "operators remaining after end of function body or expression"
  | .missingEnd => "control frames remain at end of function body or expression"
  | .immutableGlobal => "global is immutable: cannot modify it with `global.set`"
  | .alignmentTooLarge => "malformed memop alignment: alignment must not be larger than natural"
  | .alignmentNotExact => "atomic instructions must always specify maximum alignment"
  | .offsetTooLarge => "offset out of range: must be <= 2**32"
  | .laneOutOfBounds => "SIMD index out of bounds"
  | .missingDataCount => "data count section required"
  | .undeclaredReference => "undeclared function reference"
  | .disabled feature => feature ++ " support is not enabled"

end TreeWasm.Wasm
