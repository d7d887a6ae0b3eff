-- SUMMARY: The first line of a listed node, and that everything it shows can be told from it.
import TreeWasm.Proofs.Machine.Listing

/-!
# Heads of nodes

The first line of a node shows what the node says itself, apart from its parts: its `Head`. A line
is cut into its first word and the rest at the first space, and each rest at the next one, so a head
can be told from its line (`Head.text_inj`). That needs labels without the characters that cut a
line, and numbers that are not NaN.
-/

namespace TreeWasm

/-! ## Words -/

/-- The word that a line begins with. -/
inductive Word where
  | constI32
  | constF64
  | localGet
  | block
  | binary (op : MachineOp)
  | branch
  | cond
  | drop
deriving DecidableEq, Repr

namespace Word

def name : Word → String
  | .constI32 => "i32.const"
  | .constF64 => "f64.const"
  | .localGet => "local.get"
  | .block => "block"
  | .binary op => op.name
  | .branch => "br"
  | .cond => "if"
  | .drop => "drop"

def all : List Word :=
  [.constI32, .constF64, .localGet, .block, .branch, .cond, .drop] ++ MachineOp.all.map .binary

def ofName? (s : String) : Option Word := all.find? (·.name == s)

theorem ofName?_name (w : Word) : ofName? w.name = some w := by
  rcases w with _ | _ | _ | _ | (⟨_ | _, _ | _⟩ | ⟨_ | _, _ | _⟩) | _ | _ | _ <;> decide

theorem name_inj {v w : Word} (h : v.name = w.name) : v = w := by
  have hfound := w.ofName?_name
  rw [← h, v.ofName?_name] at hfound
  exact Option.some.inj hfound

theorem lacks_name (w : Word) : Lacks shaping w.name := by
  cases w with
  | binary op => exact op.lacks_name
  | _ => decide

end Word

/-! ## Heads -/

/-- What a node says itself. -/
inductive Head where
  | constI32 (value : Int32)
  | constF64 (value : Binary64)
  | localGet (index : UInt32) (type : MachineType)
  | block (label : String) (type : MachineType)
  | binary (op : MachineOp)
  | breakTo (label : String)
  | breakWith (label : String)
  | cond (type : MachineType)
  | drop

namespace Head

def word : Head → Word
  | .constI32 _ => .constI32
  | .constF64 _ => .constF64
  | .localGet .. => .localGet
  | .block .. => .block
  | .binary op => .binary op
  | .breakTo _ => .branch
  | .breakWith _ => .branch
  | .cond _ => .cond
  | .drop => .drop

/-- What follows the first word. -/
def rest : Head → String
  | .constI32 value => " " ++ (toString value.toInt ++ ")")
  | .constF64 value => " " ++ (listingLayout.float value ++ ")")
  | .localGet index type => " " ++ (toString index.toNat ++ (" (; " ++ (type.name ++ " ;))")))
  | .block label type => " $" ++ (label ++ type.resultClause)
  | .binary _ => ""
  | .breakTo label => " $" ++ (label ++ ")")
  | .breakWith label => " $" ++ label
  | .cond type => type.resultClause
  | .drop => ""

def text (h : Head) : String := "(" ++ (h.word.name ++ h.rest)

/-- The labels and numbers of the head are such that they can be read. -/
def Readable : Head → Prop
  | .constF64 value => value.isNaN = false
  | .block label _ | .breakTo label | .breakWith label => Lacks shaping label
  | _ => True

end Head

theorem MachineType.name_inj {s t : MachineType} (h : s.name = t.name) : s = t := by
  have hfound := ofName?_name t
  rw [← h, ofName?_name] at hfound
  exact Option.some.inj hfound

theorem MachineType.startsWith_resultClause (t : MachineType) :
    StartsWith ' ' t.resultClause.toList := by
  unfold resultClause
  split <;> simp [StartsWith]

/-- Clauses show the types that have values by their names, and the others have none. -/
theorem MachineType.resultClause_inj {s t : MachineType} (h : s.resultClause = t.resultClause) :
    s = t := by
  revert h
  cases s <;> cases t <;> decide

/-- Texts without spaces are cut off at the first one. -/
theorem append_inj_of_lacks {s t s' t' : String} (hs : Lacks shaping s) (hs' : Lacks shaping s')
    (ht : StartsWith ' ' t.toList) (ht' : StartsWith ' ' t'.toList) (h : s ++ t = s' ++ t') :
    s = s' ∧ t = t' := by
  have hlists := congrArg String.toList h
  rw [String.toList_append, String.toList_append] at hlists
  have hspace {s : String} : Lacks shaping s → ' ' ∉ s.toList := fun h hmem => h _ hmem (by decide)
  obtain ⟨hfirst, hrest⟩ := append_inj_of_startsWith (hspace hs) (hspace hs') ht ht' hlists
  exact ⟨String.toList_inj.1 hfirst, String.toList_inj.1 hrest⟩

namespace Head

theorem startsWith_rest (h : Head) : StartsWith ' ' h.rest.toList := by
  cases h with
  | cond type => exact type.startsWith_resultClause
  | _ => simp [rest, StartsWith]

/-- A branch with a value does not end in a parenthesis. -/
theorem label_ne_closed {label label' : String} (h : Lacks shaping label) :
    label ≠ label' ++ ")" := by
  rintro rfl
  have hclose : ')' ∈ (label' ++ ")").toList := by simp
  exact h _ hclose (by decide)

theorem eq_of_rest {a b : Head} (ha : a.Readable) (hb : b.Readable) (hword : a.word = b.word)
    (hrest : a.rest = b.rest) : a = b := by
  cases a with
  | constI32 v =>
    cases b with
    | constI32 w =>
      have hvalue := (String.append_left_inj ")").1 ((String.append_right_inj " ").1 hrest)
      rw [Int32.toInt_inj.1 (intToString_inj hvalue)]
    | _ => cases hword
  | constF64 v =>
    cases b with
    | constF64 w =>
      have hvalue := (String.append_left_inj ")").1 ((String.append_right_inj " ").1 hrest)
      rw [Layout.float_inj ha hb hvalue]
    | _ => cases hword
  | localGet index type =>
    cases b with
    | localGet index' type' =>
      have hspace : ∀ s : String, StartsWith ' ' (" (; " ++ s).toList := by simp [StartsWith]
      obtain ⟨hindex, htype⟩ := append_inj_of_lacks (lacks_natToString _) (lacks_natToString _)
        (hspace _) (hspace _) ((String.append_right_inj " ").1 hrest)
      have hname := (String.append_left_inj " ;))").1 ((String.append_right_inj " (; ").1 htype)
      rw [UInt32.toNat_inj.1 (natToString_inj hindex), MachineType.name_inj hname]
    | _ => cases hword
  | block label type =>
    cases b with
    | block label' type' =>
      obtain ⟨hlabel, htype⟩ := append_inj_of_lacks ha hb type.startsWith_resultClause
        type'.startsWith_resultClause ((String.append_right_inj " $").1 hrest)
      rw [hlabel, MachineType.resultClause_inj htype]
    | _ => cases hword
  | binary op =>
    cases b with
    | binary op' => rw [Word.binary.inj hword]
    | _ => cases hword
  | breakTo label =>
    cases b with
    | breakTo label' =>
      rw [(String.append_left_inj ")").1 ((String.append_right_inj " $").1 hrest)]
    | breakWith label' =>
      exact absurd ((String.append_right_inj " $").1 hrest).symm (label_ne_closed hb)
    | _ => cases hword
  | breakWith label =>
    cases b with
    | breakTo label' => exact absurd ((String.append_right_inj " $").1 hrest) (label_ne_closed ha)
    | breakWith label' => rw [(String.append_right_inj " $").1 hrest]
    | _ => cases hword
  | cond type =>
    cases b with
    | cond type' => rw [MachineType.resultClause_inj hrest]
    | _ => cases hword
  | drop =>
    cases b with
    | drop => rfl
    | _ => cases hword

/-- A head can be told from its line. -/
theorem text_inj {a b : Head} (ha : a.Readable) (hb : b.Readable) (h : a.text = b.text) :
    a = b := by
  obtain ⟨hname, hrest⟩ := append_inj_of_lacks a.word.lacks_name b.word.lacks_name
    a.startsWith_rest b.startsWith_rest ((String.append_right_inj "(").1 h)
  exact eq_of_rest ha hb (Word.name_inj hname) hrest

end Head

end TreeWasm
