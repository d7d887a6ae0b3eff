-- SUMMARY: Settings read from a configuration text.
import TreeWasm.Diagnostic
import TreeWasm.Json.Text
import TreeWasm.Settings

/-!
# Reading settings

A configuration text is a sequence of lines. A line is blank, or it sets a switch to `true` or
`false`; a comment may end it. The name of a switch is written bare or quoted, and each may be set
once. A mark of byte order at the start of the text is ignored.
-/

namespace TreeWasm.Settings

/-! ## Switches -/

inductive Switch where
  | emitNameSection
  | exportFunctions
  | validateOutput
  | printModule
deriving DecidableEq, Repr, Inhabited

namespace Switch

def all : List Switch := [.emitNameSection, .exportFunctions, .validateOutput, .printModule]

def name : Switch → String
  | .emitNameSection => "emit_name_section"
  | .exportFunctions => "export_functions"
  | .validateOutput => "validate_output"
  | .printModule => "print_module"

def ofName? (s : String) : Option Switch := all.find? (·.name == s)

end Switch

def set (settings : Settings) : Switch → Bool → Settings
  | .emitNameSection, b => { settings with emitNameSection := b }
  | .exportFunctions, b => { settings with exportFunctions := b }
  | .validateOutput, b => { settings with validateOutput := b }
  | .printModule, b => { settings with printModule := b }

/-! ## Names -/

def isBlank (c : Char) : Bool := c = ' ' || c = '\t'

def isBareKeyChar (c : Char) : Bool :=
  ('a' ≤ c && c ≤ 'z') || ('A' ≤ c && c ≤ 'Z') || c.isDigit || c = '_' || c = '-'

/-- The character may stand in comments and quotes. Of the control characters only a tab may. -/
def isPrintable (c : Char) : Bool := c = '\t' || (0x20 ≤ c.toNat && c.toNat ≠ 0x7f)

/-- The character with a number, if it has one. -/
def charOfNat? (n : Nat) : Option Char := if n.isValidChar then some (.ofNat n) else none

/-- The character that a backslash and a letter stand for. -/
def shortEscape? : Char → Option Char
  | 'b' => some '\x08'
  | 't' => some '\t'
  | 'n' => some '\n'
  | 'f' => some '\x0c'
  | 'r' => some '\r'
  | 'e' => some '\x1b'
  | '"' => some '"'
  | '\\' => some '\\'
  | _ => none

/-- The character that a number in base sixteen stands for. -/
def numericEscape? (digits : List Char) : Option Char := Json.hexNumber? digits >>= charOfNat?

/-- The rest of a name in double quotes, and what follows it. -/
def scanEscaped (name : List Char) : List Char → Option (List Char × List Char)
  | [] => none
  | '"' :: rest => some (name.reverse, rest)
  | '\\' :: 'x' :: a :: b :: rest => do scanEscaped ((← numericEscape? [a, b]) :: name) rest
  | '\\' :: 'u' :: a :: b :: c :: d :: rest => do
    scanEscaped ((← numericEscape? [a, b, c, d]) :: name) rest
  | '\\' :: 'U' :: a :: b :: c :: d :: e :: f :: g :: h :: rest => do
    scanEscaped ((← numericEscape? [a, b, c, d, e, f, g, h]) :: name) rest
  | '\\' :: e :: rest => do scanEscaped ((← shortEscape? e) :: name) rest
  | c :: rest => if isPrintable c && c ≠ '\\' then scanEscaped (c :: name) rest else none

/-- The rest of a name in single quotes, and what follows it. -/
def scanLiteral (s : List Char) : Option (List Char × List Char) :=
  let name := s.takeWhile fun c => isPrintable c && c ≠ '\''
  match s.dropWhile fun c => isPrintable c && c ≠ '\'' with
  | '\'' :: rest => some (name, rest)
  | _ => none

/-- The name at the front of a line, and what follows it. -/
def scanName : List Char → Option (List Char × List Char)
  | '"' :: rest => scanEscaped [] rest
  | '\'' :: rest => scanLiteral rest
  | s =>
    let name := s.takeWhile isBareKeyChar
    if name.isEmpty then none else some (name, s.dropWhile isBareKeyChar)

/-! ## Lines -/

/-- What a line says. -/
inductive Statement where
  | blank
  | entry (name : String) (value : Bool)
deriving DecidableEq, Repr, Inhabited

/-- Nothing but blanks and a comment. -/
def isTrailer (s : List Char) : Bool :=
  match s.dropWhile isBlank with
  | [] => true
  | '#' :: comment => comment.all isPrintable
  | _ => false

/-- The value behind the sign of equality, to the end of the line. -/
def scanValue (s : List Char) : Option Bool :=
  match s.dropWhile isBlank with
  | 't' :: 'r' :: 'u' :: 'e' :: rest => if isTrailer rest then some true else none
  | 'f' :: 'a' :: 'l' :: 's' :: 'e' :: rest => if isTrailer rest then some false else none
  | _ => none

def Statement.ofText? (s : List Char) : Option Statement :=
  if isTrailer s then some .blank
  else do
    let (name, rest) ← scanName (s.dropWhile isBlank)
    match rest.dropWhile isBlank with
    | '=' :: rest => return .entry (String.ofList name) (← scanValue rest)
    | _ => none

/-- The lines of a text. A line ends in a line feed, which a carriage return may precede. -/
def lines : List Char → List (List Char)
  | [] => [[]]
  | '\n' :: rest => [] :: lines rest
  | '\r' :: '\n' :: rest => [] :: lines rest
  | c :: rest =>
    match lines rest with
    | line :: more => (c :: line) :: more
    | [] => [[c]]

/-! ## Texts -/

inductive Fault where
  | malformedLine (text : String)
  | unknownSwitch (name : String)
  | repeatedSwitch (name : String)
deriving DecidableEq, Repr, Inhabited

def Fault.message : Fault → String
  | .malformedLine text => "malformed line: " ++ text
  | .unknownSwitch name => "unknown switch: " ++ name
  | .repeatedSwitch name => "repeated switch: " ++ name

/-- What the message of a malformed configuration starts with. -/
def faultHeading : String := "Could not parse codegen config: "

def Fault.diagnose (f : Fault) : Diagnostic := ⟨.config, faultHeading ++ f.message, {}⟩

/-- Apply lines in order. `seen` are the switches that were set before. -/
def applyLines (settings : Settings) (seen : List Switch) :
    List (List Char) → Except Fault Settings
  | [] => .ok settings
  | text :: rest =>
    match Statement.ofText? text with
    | none => .error (.malformedLine (String.ofList text))
    | some .blank => applyLines settings seen rest
    | some (.entry name value) =>
      match Switch.ofName? name with
      | none => .error (.unknownSwitch name)
      | some switch =>
        if switch ∈ seen then .error (.repeatedSwitch name)
        else applyLines (settings.set switch value) (switch :: seen) rest

/-- The settings that a configuration text describes. Switches it does not set keep their
defaults. -/
def ofText (text : String) : Except Fault Settings :=
  match text.toList with
  | '\ufeff' :: rest => applyLines {} [] (lines rest)
  | s => applyLines {} [] (lines s)

end TreeWasm.Settings
