-- SUMMARY: Every text that presents a program, whatever its blanks, escapes, order and omissions, is read as the program.
import TreeWasm.Proofs.Document.Rearrangement
import TreeWasm.Proofs.Document.RoundTrip

/-!
# Presentations of a program

The document of a program is steady, instruction by instruction (`steady_ofInstruction`). So any
text of the tokens of any arrangement of it is read as the program, if there is room for its arrays
and objects (`readProgram_presented`). The text that is written for the program is one of these
texts.
-/

namespace TreeWasm

namespace Document

/-! ## Instructions -/

theorem not_omittable_ofInstruction (key : Json.Key) (i : Instruction) :
    ¬Omittable key (ofInstruction i) := by
  cases i <;> rintro (⟨-, ⟨⟩⟩ | ⟨-, ⟨⟩⟩ | ⟨-, ⟨⟩⟩)

/-- An instruction of a kind whose fields are written as the members of an object. -/
theorem steady_kind {kind : Kind} (hkind : payloadShape kind = .record (.instruction kind))
    {members : List (String × Json)} {parts : List Part} {i : Instruction}
    (h : SteadyFields (Record.instruction kind).fields members parts)
    (hbuild : buildInstruction kind parts = some i) :
    Steady (variant kind (record members)) .instruction (.instruction i) := by
  have hnodup : ((Record.instruction kind).fields.map Field.name).Nodup := by
    cases kind <;> decide
  have hpayload : Steady (record members) (payloadShape kind) (.list parts) :=
    hkind ▸ h.steady hnodup rfl
  exact hpayload.variant (congrArg (Option.map Part.instruction) hbuild)

theorem optional_steady {i : Instruction}
    (h : Steady (ofInstruction i) .instruction (.instruction i)) :
    Steady (ofInstruction i) .optionalInstruction (.instruction i) := by
  cases i <;> exact h.optional

mutual

theorem steady_ofInstruction :
    ∀ i : Instruction, AllFinite i.literals → Steady (ofInstruction i) .instruction (.instruction i)
  | .constInt32 value, _ => (steady_int32 value).variant rfl
  | .constFloat64 _, h => (steady_float h).variant rfl
  | .constBool value, _ => (steady_flag value).variant rfl
  | .localGet index type, _ =>
    steady_kind rfl (.required (by decide) (steady_word index)
      (.required (by decide) (steady_valueType type) .nil)) rfl
  | .block label type children, h =>
    have hchildren := mapM_map_some Part.instruction Part.instruction? (fun _ => rfl) children
    steady_kind rfl (.required (by decide) (steady_text label)
      (.required (by decide) (steady_valueType type)
        (.required (by decide) (steadyAll_ofInstructions children h).steady
          .nil)))
      (congrArg (Option.map (Instruction.block label type)) hchildren)
  | .binaryOp op type lhs rhs, h =>
    have ⟨hlhs, hrhs⟩ := allFinite_append.1 h
    steady_kind rfl (.required (by decide) (steady_operator op)
      (.required (by decide) (steady_valueType type)
        (.required (by decide) (steady_ofInstruction lhs hlhs)
          (.required (by decide) (steady_ofInstruction rhs hrhs) .nil)))) rfl
  | .breakTo label, _ =>
    steady_kind rfl (.required (by decide) (steady_text label)
      (.cons steady_absent (fun _ => rfl) .nil)) rfl
  | .breakWith label value, h =>
    steady_kind rfl (.required (by decide) (steady_text label)
      (.present (not_omittable_ofInstruction _ value)
        (optional_steady (steady_ofInstruction value h)) .nil)) rfl
  | .ifThen condition thenBody, h =>
    have ⟨hcondition, hthen⟩ := allFinite_append.1 h
    steady_kind rfl
      (.required (by decide) (steady_ofInstruction condition hcondition)
        (.required (by decide) (steady_ofInstruction thenBody hthen)
          (.cons steady_absent (fun _ => rfl) .nil))) rfl
  | .ifElse condition thenBody elseBody, h =>
    have ⟨hfirst, helse⟩ := allFinite_append.1 h
    have ⟨hcondition, hthen⟩ := allFinite_append.1 hfirst
    steady_kind rfl
      (.required (by decide) (steady_ofInstruction condition hcondition)
        (.required (by decide) (steady_ofInstruction thenBody hthen)
          (.present (not_omittable_ofInstruction _ elseBody)
            (optional_steady (steady_ofInstruction elseBody helse)) .nil))) rfl
  | .storeLocal index value, h =>
    steady_kind rfl (.required (by decide) (steady_word index)
      (.present (not_omittable_ofInstruction _ value) (steady_ofInstruction value h) .nil)) rfl
  | .propertyAccess pointer offset type, h =>
    steady_kind rfl (.required (by decide) (steady_ofInstruction pointer h)
      (.required (by decide) (steady_word offset)
        (.required (by decide) (steady_valueType type) .nil))) rfl
  | .propertyAssignment pointer offset value, h =>
    have ⟨hpointer, hvalue⟩ := allFinite_append.1 h
    steady_kind rfl (.required (by decide) (steady_ofInstruction pointer hpointer)
      (.required (by decide) (steady_word offset)
        (.present (not_omittable_ofInstruction _ value) (steady_ofInstruction value hvalue)
          .nil))) rfl
  | .containerAlloc bytes, _ =>
    steady_kind rfl (.required (by decide) (steady_word bytes) .nil) rfl
  | .stackAlloc amount, _ =>
    steady_kind rfl (.required (by decide) (steady_word amount) .nil) rfl
  | .stackFree amount, _ =>
    steady_kind rfl (.required (by decide) (steady_word amount) .nil) rfl

theorem steadyAll_ofInstructions :
    ∀ is : List Instruction, AllFinite (Instruction.literalsOfAll is) →
      SteadyAll .instruction (ofInstructions is) (is.map .instruction)
  | [], _ => .nil
  | i :: is, h =>
    have ⟨hi, his⟩ := allFinite_append.1 h
    .cons (steady_ofInstruction i hi) (steadyAll_ofInstructions is his)

end

/-! ## Functions and modules -/

theorem steady_valueTypes (types : List ValueType) :
    Steady (.array (types.map ofValueType)) (.list .valueType) (.list (types.map .valueType)) :=
  (SteadyAll.map fun t _ => steady_valueType t).steady

theorem steady_ofFunction {f : Function} (h : AllFinite f.body.literals) :
    Steady (ofFunction f) (.record .function) (.function f) := by
  have hlocals : Omittable (.text "locals") (.array (f.locals.map ofValueType)) →
      some (Part.list []) = some (.list (f.locals.map .valueType)) := by
    rintro (⟨-, hnil⟩ | ⟨-, ⟨⟩⟩ | ⟨-, ⟨⟩⟩)
    rw [List.map_eq_nil_iff.1 (Json.array.inj hnil)]
    rfl
  have hfields : SteadyFields (Record.fields .function) _ _ :=
    .required (by decide) (steady_text f.name)
      (.required (by decide) (steady_valueTypes f.params)
        (.required (by decide) (steady_valueType f.returnType)
          (.cons (steady_valueTypes f.locals) hlocals
            (.required (by decide) (steady_ofInstruction f.body h) .nil))))
  exact hfields.steady (by decide) (build_function f)

theorem steady_ofModule {m : Module} (h : AllFinite (m.functions.flatMap (·.body.literals))) :
    Steady (ofModule m) (.record .module) (.module m) := by
  have hfunctions : SteadyAll (.record .function) (m.functions.map ofFunction)
      (m.functions.map .function) :=
    .map fun f hf => steady_ofFunction fun x hx => h x (List.mem_flatMap.2 ⟨f, hf, hx⟩)
  have hfields : SteadyFields (Record.fields .module) _ _ :=
    .required (by decide) (steady_text m.name) (.required (by decide) hfunctions.steady .nil)
  exact hfields.steady (by decide) (build_module m)

theorem steady_ofProgram {program : List Module} (h : AllFinite (literals program)) :
    Steady (ofProgram program) (.list (.record .module)) (.list (program.map .module)) :=
  have hmodules : SteadyAll (.record .module) (program.map ofModule) (program.map .module) :=
    .map fun m hm => steady_ofModule fun x hx => h x (List.mem_flatMap.2 ⟨m, hm, hx⟩)
  hmodules.steady

/-! ## Texts -/

/-- The text is one of the tokens of the program's document, with its members in any order, those
that may be missing there or not, any blanks between tokens and any spelling of each string. -/
def Presents (program : List Module) (text : String) : Prop :=
  ∃ v, Rearranged (ofProgram program) v ∧ Json.Renders v.spelling text.toList

theorem presents_encodeProgram {program : List Module} (hreads : AllReadBack (literals program)) :
    Presents program (encodeProgram program) := by
  have hplain := (denotes_ofProgram program).plain hreads
  exact ⟨ofProgram program, rearranged_self _ hplain, Json.renders_toText hplain⟩

theorem decodeProgram_of_presents {program : List Module} (hfinite : AllFinite (literals program))
    (hreads : AllReadBack (literals program)) {text : String} (h : Presents program text)
    (hnesting : Json.nesting text ≤ maxDepth) : decodeProgram text = .ok program := by
  obtain ⟨v, hv, htext⟩ := h
  have hplain := hv.plain ((denotes_ofProgram program).plain hreads)
  rw [Json.nesting_of_renders hplain htext] at hnesting
  have hdecode := steady_ofProgram hfinite v hv 0 (by rwa [Nat.zero_add])
  have hpart : decodeText (.list (.record .module)) text = .ok (.list (program.map .module)) := by
    unfold decodeText
    rw [Json.ofText_of_renders hplain htext]
    simp only [hdecode]
    rfl
  have hmodules := mapM_map_some Part.module Part.module? (fun _ => rfl) program
  unfold decodeProgram
  rw [hpart]
  simp only [hmodules, bind, Except.bind]
  rfl

end Document

/-- Of a program with finite literals every presentation is read as the program if at most 127
arrays and objects are open in it at once, be it the text that is written for the program or one
that differs from it in the blanks, the order of members, the spelling of strings and the members
that are left out. That numerals stand for the literals they are written for is assumed. -/
theorem readProgram_presented (program : List Module)
    (hliterals : ∀ x ∈ literals program, x.isFinite ∧ (Json.Number.float x).ReadsBack) :
    Document.Presents program (Document.encodeProgram program) ∧
      ∀ text, Document.Presents program text → Json.nesting text ≤ 127 →
        readProgram text = .ok program := by
  have hfinite : Document.AllFinite (literals program) := fun x hx => (hliterals x hx).1
  have hreads : Document.AllReadBack (literals program) := fun x hx _ => (hliterals x hx).2
  refine ⟨Document.presents_encodeProgram hreads, fun text h hnesting => ?_⟩
  rw [readProgram, Document.decodeProgram_of_presents hfinite hreads h hnesting]

/-- A function without locals, in which a value and an alternative are absent. -/
def aborting : List Module :=
  [⟨"m", [⟨"f", [], .nothing, [],
    .ifThen (.constFloat64 ⟨0x3FF8000000000000⟩) (.breakTo "exit")⟩]⟩]

namespace Document

/-- The functions with all that may be left out gone, and a body in front of its condition. -/
def abortingFunctions : Json :=
  .array [record
    [("name", ofText "f"), ("params", .array []), ("return_type", ofValueType .nothing),
     ("body", variant .cond (record
       [("then_body", variant .breakTo (record [("label", ofText "exit")])),
        ("condition", variant .constFloat64 (.number (.float ⟨0x3FF8000000000000⟩)))]))]]

/-- A module with its functions in front of its name. -/
def nameLast (functions : Json) : Json :=
  .array [record [("functions", functions), ("name", ofText "m")]]

/-- The name is spelled by the number of its letter. -/
def nameLastText (functions : Json) : String :=
  "[\x7b \"functions\":" ++ functions.toText ++ ",\t\"name\":\"\\u006D\"\x7d]"

theorem rearranged_aborting : Rearranged (ofProgram aborting) (nameLast abortingFunctions) := by
  have hcondition : Rearranged (.number (.float ⟨0x3FF8000000000000⟩)) _ := .number _
  have hthen : Rearranged (record [("label", ofText "exit"), ("value", .null)])
      (record [("label", ofText "exit")]) :=
    .object (.refl _) (.keep (.string _) (.skip (.inr (.inl ⟨rfl, rfl⟩)) .nil))
  have hbody : Rearranged (ofInstruction (.ifThen (.constFloat64 ⟨0x3FF8000000000000⟩)
      (.breakTo "exit"))) _ :=
    .object (.refl _) (.keep (.object (.swap _ _ _)
      (.keep (.object (.refl _) (.keep hthen .nil))
        (.keep (.object (.refl _) (.keep hcondition .nil))
          (.skip (.inr (.inr ⟨rfl, rfl⟩)) .nil)))) .nil)
  have hfunctions : Rearranged (.array (aborting.flatMap (·.functions.map ofFunction)))
      abortingFunctions :=
    .array (.cons (.object (.refl _)
      (.keep (.string _) (.keep (.array .nil) (.keep (.string _)
        (.skip (.inl ⟨rfl, rfl⟩) (.keep hbody .nil)))))) .nil)
  exact .array (.cons (.object (.swap _ _ _)
    (.keep hfunctions (.keep (.string _) .nil))) .nil)

theorem renders_nameLast {functions : Json} (h : functions.Plain) :
    Json.Renders (nameLast functions).spelling (nameLastText functions).toList := by
  have hletter : Json.HexNumber 'm'.toNat ['0', '0', '6', 'D'] :=
    @Json.HexNumber.mk 0 0 6 13 _ _ _ _ (by decide) (by decide) (by decide) (by decide)
  have hname : Json.Escaped "m".toList ['\\', 'u', '0', '0', '6', 'D'] := .unit hletter .nil
  have hback := Json.Renders.token .comma (.blank (.inr (.inl rfl))
    (.token (Json.lexeme_quote "name") (.token .colon
      (.token (.string hname) (.token .closeBrace (.token .closeBracket .nil))))))
  have hfunctions := Json.Renders.token (Json.lexeme_quote "functions")
    (.token .colon (Json.renders_print 0 hback functions h))
  have hall := Json.Renders.token .openBracket (.token .openBrace (.blank (.inl rfl) hfunctions))
  show Json.Renders _ (_ ++ functions.toText ++ _ : String).toList
  simpa [nameLast, record, ofText, Json.toText, Json.spelling, Json.elementsSpelling,
    Json.membersSpelling, Json.Key.spelling, Json.quote, Json.escapeChar] using hall

end Document

theorem readProgram_aborting :
    (∀ x ∈ literals aborting, x.isFinite ∧ (Json.Number.float x).ReadsBack) ∧
      Document.Presents aborting (Document.nameLastText Document.abortingFunctions) ∧
      Json.nesting (Document.nameLastText Document.abortingFunctions) ≤ 127 ∧
      readProgram (Document.nameLastText Document.abortingFunctions) = .ok aborting := by
  have hliterals : ∀ x ∈ literals aborting, x.isFinite ∧ (Json.Number.float x).ReadsBack := by
    intro x hx
    obtain rfl := List.mem_singleton.1 hx
    exact ⟨by decide, ⟨false, ['1'], ['5'], none⟩, by decide +kernel, by decide +kernel⟩
  have hreads : Document.AllReadBack (literals aborting) := fun x hx _ => (hliterals x hx).2
  have hplain := Document.rearranged_aborting.plain
    ((Document.denotes_ofProgram aborting).plain hreads)
  have htext := Document.renders_nameLast hplain.1.2.1
  have hpresents : Document.Presents aborting _ := ⟨_, Document.rearranged_aborting, htext⟩
  have hnesting : Json.nesting (Document.nameLastText Document.abortingFunctions) ≤ 127 := by
    rw [Json.nesting_of_renders hplain htext]
    decide
  exact ⟨hliterals, hpresents, hnesting,
    (readProgram_presented aborting hliterals).2 _ hpresents hnesting⟩

end TreeWasm
