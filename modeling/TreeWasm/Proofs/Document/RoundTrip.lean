-- SUMMARY: A program is read back from its document, or the document is refused.
import TreeWasm.Document.Generation
import TreeWasm.Proofs.Document.Reading
import TreeWasm.Proofs.Json.Reading

/-!
# Programs read back

The document of a program denotes the program (`denotes_ofProgram`). So its text is read as the
program exactly if all floating-point literals are finite and its arrays and objects do not nest too
deep, and nothing else is ever read from it (`readProgram_encodeProgram`).
-/

namespace TreeWasm

/-! ## Literals -/

mutual

/-- The floating-point literals of an instruction, from left to right. -/
def Instruction.literals : Instruction → List Binary64
  | .constFloat64 value => [value]
  | .constInt32 _ | .constBool _ | .localGet .. | .breakTo _ => []
  | .containerAlloc _ | .stackAlloc _ | .stackFree _ => []
  | .block _ _ children => Instruction.literalsOfAll children
  | .breakWith _ value | .storeLocal _ value => value.literals
  | .propertyAccess pointer _ _ => pointer.literals
  | .binaryOp _ _ first second | .ifThen first second | .propertyAssignment first _ second =>
    first.literals ++ second.literals
  | .ifElse condition thenBody elseBody =>
    condition.literals ++ thenBody.literals ++ elseBody.literals

def Instruction.literalsOfAll : List Instruction → List Binary64
  | [] => []
  | i :: is => i.literals ++ Instruction.literalsOfAll is

end

/-- The floating-point literals of a program, in order. -/
def literals (program : List Module) : List Binary64 :=
  program.flatMap fun m => m.functions.flatMap fun f => f.body.literals

namespace Document

/-! ## Instructions -/

/-- Parts that were made of values one by one give the values back. -/
theorem mapM_map_some (f : α → Part) (g : Part → Option α) (h : ∀ a, g (f a) = some a)
    (as : List α) : (as.map f).mapM g = some as := by
  have hpure : g ∘ f = fun a => pure (id a) := funext h
  rw [List.mapM_map, hpure, List.mapM_pure, List.map_id]
  rfl

/-- An instruction of a kind whose fields are written as the members of an object. -/
theorem denotes_kind {kind : Kind} (hkind : payloadShape kind = .record (.instruction kind))
    {members : List (String × Json)} {parts : List Part} {xs : List Binary64} {i : Instruction}
    (h : DenoteFields (instructionFields kind) members parts xs)
    (hbuild : buildInstruction kind parts = some i) (hliterals : xs = i.literals) :
    Denotes (variant kind (record members)) .instruction (.instruction i) i.literals := by
  have hnodup : ((Record.instruction kind).fields.map Field.name).Nodup := by
    cases kind <;> decide
  have hpayload := DenoteFields.denotes (r := .instruction kind) h hnodup rfl
  rw [← hkind, hliterals] at hpayload
  exact hpayload.variant (congrArg (Option.map Part.instruction) hbuild)

theorem optional_ofInstruction {i : Instruction}
    (h : Denotes (ofInstruction i) .instruction (.instruction i) i.literals) :
    Denotes (ofInstruction i) .optionalInstruction (.instruction i) i.literals := by
  cases i <;> exact h.optional

mutual

theorem denotes_ofInstruction :
    ∀ i : Instruction, Denotes (ofInstruction i) .instruction (.instruction i) i.literals
  | .constInt32 value => (denotes_int32 value).variant rfl
  | .constFloat64 value => (denotes_float value).variant rfl
  | .constBool value => (denotes_flag value).variant rfl
  | .localGet index type =>
    denotes_kind rfl (.cons (denotes_word index) (.cons (denotes_valueType type) .nil)) rfl rfl
  | .block label type children =>
    have hchildren := mapM_map_some Part.instruction Part.instruction? (fun _ => rfl) children
    denotes_kind rfl (.cons (denotes_text label) (.cons (denotes_valueType type)
      (.cons (denoteAll_ofInstructions children).denotes .nil)))
      (congrArg (Option.map (Instruction.block label type)) hchildren)
      (by simp [Instruction.literals])
  | .binaryOp op type lhs rhs =>
    denotes_kind rfl (.cons (denotes_operator op) (.cons (denotes_valueType type)
      (.cons (denotes_ofInstruction lhs) (.cons (denotes_ofInstruction rhs) .nil)))) rfl
      (by simp [Instruction.literals])
  | .breakTo label =>
    denotes_kind rfl (.cons (denotes_text label) (.cons denotes_absent .nil)) rfl rfl
  | .breakWith label value =>
    denotes_kind rfl (.cons (denotes_text label)
      (.cons (optional_ofInstruction (denotes_ofInstruction value)) .nil)) rfl
      (by simp [Instruction.literals])
  | .ifThen condition thenBody =>
    denotes_kind rfl (.cons (denotes_ofInstruction condition)
      (.cons (denotes_ofInstruction thenBody) (.cons denotes_absent .nil))) rfl
      (by simp [Instruction.literals])
  | .ifElse condition thenBody elseBody =>
    denotes_kind rfl (.cons (denotes_ofInstruction condition)
      (.cons (denotes_ofInstruction thenBody)
        (.cons (optional_ofInstruction (denotes_ofInstruction elseBody)) .nil))) rfl
      (by simp [Instruction.literals])
  | .storeLocal index value =>
    denotes_kind rfl (.cons (denotes_word index) (.cons (denotes_ofInstruction value) .nil)) rfl
      (by simp [Instruction.literals])
  | .propertyAccess pointer offset type =>
    denotes_kind rfl (.cons (denotes_ofInstruction pointer) (.cons (denotes_word offset)
      (.cons (denotes_valueType type) .nil))) rfl (by simp [Instruction.literals])
  | .propertyAssignment pointer offset value =>
    denotes_kind rfl (.cons (denotes_ofInstruction pointer) (.cons (denotes_word offset)
      (.cons (denotes_ofInstruction value) .nil))) rfl (by simp [Instruction.literals])
  | .containerAlloc bytes => denotes_kind rfl (.cons (denotes_word bytes) .nil) rfl rfl
  | .stackAlloc amount => denotes_kind rfl (.cons (denotes_word amount) .nil) rfl rfl
  | .stackFree amount => denotes_kind rfl (.cons (denotes_word amount) .nil) rfl rfl

theorem denoteAll_ofInstructions :
    ∀ is : List Instruction, DenoteAll .instruction (ofInstructions is) (is.map .instruction)
      (Instruction.literalsOfAll is)
  | [] => .nil
  | i :: is => .cons (denotes_ofInstruction i) (denoteAll_ofInstructions is)

end

/-! ## Functions and modules -/

theorem DenoteAll.map {shape : Shape} {write : α → Json} {part : α → Part}
    {literals : α → List Binary64} (h : ∀ a, Denotes (write a) shape (part a) (literals a)) :
    ∀ as : List α, DenoteAll shape (as.map write) (as.map part) (as.flatMap literals)
  | [] => .nil
  | a :: as => .cons (h a) (DenoteAll.map h as)

theorem denotes_valueTypes (types : List ValueType) :
    Denotes (.array (types.map ofValueType)) (.list .valueType) (.list (types.map .valueType))
      [] := by
  have hall := (DenoteAll.map denotes_valueType types).denotes
  rwa [List.flatMap_eq_nil_iff.2 fun _ _ => rfl] at hall

theorem build_function (f : Function) :
    Record.function.build [.text f.name, .list (f.params.map .valueType), .valueType f.returnType,
      .list (f.locals.map .valueType), .instruction f.body] = some (.function f) := by
  have htypes := mapM_map_some Part.valueType Part.valueType? fun _ => rfl
  show (do
    let params ← (f.params.map Part.valueType).mapM Part.valueType?
    let locals ← (f.locals.map Part.valueType).mapM Part.valueType?
    return Part.function ⟨f.name, params, f.returnType, locals, f.body⟩) = _
  rw [htypes, htypes]
  rfl

theorem denotes_ofFunction (f : Function) :
    Denotes (ofFunction f) (.record .function) (.function f) f.body.literals := by
  have hfields : DenoteFields (Record.fields .function) _ _ _ :=
    .cons (denotes_text f.name) (.cons (denotes_valueTypes f.params)
      (.cons (denotes_valueType f.returnType) (.cons (denotes_valueTypes f.locals)
        (.cons (denotes_ofInstruction f.body) .nil))))
  rw [List.append_nil] at hfields
  exact hfields.denotes (by decide) (build_function f)

theorem build_module (m : Module) :
    Record.module.build [.text m.name, .list (m.functions.map .function)] = some (.module m) := by
  have hfunctions := mapM_map_some Part.function Part.function? (fun _ => rfl) m.functions
  exact congrArg (Option.map fun functions => Part.module ⟨m.name, functions⟩) hfunctions

theorem denotes_ofModule (m : Module) :
    Denotes (ofModule m) (.record .module) (.module m) (m.functions.flatMap (·.body.literals)) := by
  have hfields : DenoteFields (Record.fields .module) _ _ _ :=
    .cons (denotes_text m.name) (.cons (DenoteAll.map denotes_ofFunction m.functions).denotes .nil)
  rw [List.append_nil] at hfields
  exact hfields.denotes (by decide) (build_module m)

theorem denotes_ofProgram (program : List Module) :
    Denotes (ofProgram program) (.list (.record .module)) (.list (program.map .module))
      (literals program) :=
  (DenoteAll.map denotes_ofModule program).denotes

/-! ## Texts -/

/-- The text of a value is read as the part that the value denotes. -/
theorem Denotes.settles_text {v : Json} {shape : Shape} {part : Part} {xs : List Binary64}
    (h : Denotes v shape part xs) (hreads : AllReadBack xs) :
    Settles (AllFinite xs ∧ v.depth ≤ maxDepth) part (decodeText shape v.toText) := by
  have hvalue := h.settles 0 (Nat.zero_le maxDepth)
  rw [Nat.zero_add] at hvalue
  unfold decodeText
  rw [Json.ofText_toText (h.plain hreads)]
  exact hvalue.bind_ok rfl

theorem settles_decodeProgram {program : List Module} (hreads : AllReadBack (literals program)) :
    Settles (AllFinite (literals program) ∧ Json.nesting (encodeProgram program) ≤ maxDepth) program
      (decodeProgram (encodeProgram program)) := by
  have hprogram := denotes_ofProgram program
  have hmodules := mapM_map_some Part.module Part.module? (fun _ => rfl) program
  unfold encodeProgram
  rw [Json.nesting_toText (hprogram.plain hreads)]
  refine (hprogram.settles_text hreads).bind_ok ?_
  simp only [hmodules]
  rfl

end Document

/-- The text that is written for a program is read as the program exactly if its literals are finite
and at most 127 arrays and objects are open in it at once. It is refused in every other case, and so
nothing but the program is ever read from it. Generating from the text is then generating from the
program. That numerals stand for the finite literals they are written for is assumed. -/
theorem readProgram_encodeProgram (program : List Module)
    (hreads : ∀ x ∈ literals program, x.isFinite → (Json.Number.float x).ReadsBack) :
    (readProgram (Document.encodeProgram program) = .ok program ↔
        (∀ x ∈ literals program, x.isFinite) ∧
          Json.nesting (Document.encodeProgram program) ≤ 127) ∧
      (readProgram (Document.encodeProgram program) ≠ .ok program →
        ∃ trouble, readProgram (Document.encodeProgram program) =
          .error (Failure.typeMismatch "a well-formed typed IR document" trouble
            "typed IR decoding").diagnose) ∧
      (readProgram (Document.encodeProgram program) = .ok program →
        ∀ settings, generateDocument (Document.encodeProgram program) settings =
          generate program settings) := by
  have hsettles := Document.settles_decodeProgram hreads
  generalize Document.encodeProgram program = text at hsettles ⊢
  have hrefused (h : ¬(Document.AllFinite (literals program) ∧ Json.nesting text ≤ 127)) :
      ∃ trouble, readProgram text = .error (Failure.typeMismatch "a well-formed typed IR document"
        trouble "typed IR decoding").diagnose := by
    obtain ⟨fault, hfault⟩ := hsettles.2 h
    exact ⟨fault.message, by rw [readProgram, hfault]; rfl⟩
  have hread (h : Document.AllFinite (literals program) ∧ Json.nesting text ≤ 127) :
      readProgram text = .ok program := by rw [readProgram, hsettles.1 h]
  have hiff : readProgram text = .ok program ↔
      Document.AllFinite (literals program) ∧ Json.nesting text ≤ 127 := by
    refine ⟨fun hok => Classical.byContradiction fun h => ?_, hread⟩
    obtain ⟨trouble, herror⟩ := hrefused h
    cases hok.symm.trans herror
  refine ⟨hiff, fun hne => hrefused fun h => hne (hread h), fun hok settings => ?_⟩
  rw [generateDocument, hok]
  rfl

/-- A function with a fractional literal, in which a value and an alternative are absent. -/
def halting : List Module :=
  [⟨"m", [⟨"f", [.bool], .nothing, [.float64],
    .block "exit" .nothing
      [.ifThen (.localGet 0 .bool) (.breakTo "exit"),
       .storeLocal 1 (.constFloat64 ⟨0x3FF8000000000000⟩)]⟩]⟩]

/-- A function whose literal is not a number. -/
def indefinite : List Module :=
  [⟨"m", [⟨"f", [], .float64, [], .constFloat64 ⟨0x7FF8000000000000⟩⟩]⟩]

/-- The first document is read back, and the second, which has nothing to write for the literal, is
refused. -/
theorem readProgram_halting :
    (∀ x ∈ literals halting, x.isFinite → (Json.Number.float x).ReadsBack) ∧
      readProgram (Document.encodeProgram halting) = .ok halting ∧
      (∀ x ∈ literals indefinite, x.isFinite → (Json.Number.float x).ReadsBack) ∧
      ∃ trouble, readProgram (Document.encodeProgram indefinite) =
        .error (Failure.typeMismatch "a well-formed typed IR document" trouble
          "typed IR decoding").diagnose := by
  have hreads : ∀ x ∈ literals halting, x.isFinite → (Json.Number.float x).ReadsBack := by
    intro x hx _
    obtain rfl := List.mem_singleton.1 hx
    exact ⟨⟨false, ['1'], ['5'], none⟩, by decide +kernel, by decide +kernel⟩
  have hplain := (Document.denotes_ofProgram halting).plain hreads
  have hnesting : Json.nesting (Document.encodeProgram halting) ≤ 127 := by
    rw [Document.encodeProgram, Json.nesting_toText hplain]
    decide
  have hvacuous : ∀ x ∈ literals indefinite, x.isFinite → (Json.Number.float x).ReadsBack := by
    intro x hx hfinite
    obtain rfl := List.mem_singleton.1 hx
    exact absurd hfinite (by decide)
  obtain ⟨hiff, hrefused, -⟩ := readProgram_encodeProgram indefinite hvacuous
  refine ⟨hreads, (readProgram_encodeProgram halting hreads).1.2 ⟨by decide, hnesting⟩, hvacuous,
    hrefused fun hok => ?_⟩
  exact absurd ((hiff.1 hok).1 _ (List.mem_singleton_self _)) (by decide)

end TreeWasm
