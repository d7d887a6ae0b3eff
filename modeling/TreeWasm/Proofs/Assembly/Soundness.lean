-- SUMMARY: Functions that are well typed are assembled, and what they are assembled to is valid.
import TreeWasm.Proofs.Validation.Soundness
import TreeWasm.Registry.Assembly

/-!
# Soundness of assembly

A well-typed function is registered, with slots of the types it declares, and its operators pass the
check of a function body (`Function.WellTyped.assemble_valid`). This puts together that lowering
keeps effects and that code of an effect passes the checker.
-/

namespace TreeWasm

open Wasm Wasm.Validation

/-- What comes after a failure is left out, and what was registered before it stays. -/
theorem Assembling.on_bind (c : Assembling α) (k : α → Assembling β) (r : Registry) :
    (c >>= k).on r = match c.on r with
      | (.ok a, after) => (k a).on after
      | (.error d, after) => (.error d, after) := by
  show (ExceptT.bind c k) r = _
  unfold ExceptT.bind ExceptT.mk
  show (ExceptT.bindCont k (c r).1) (c r).2 = _
  unfold Assembling.on
  rcases c r with ⟨_ | _, _⟩ <;> rfl

/-! ## Parts of a function -/

namespace ValueType

theorem slotType_eq_ok_iff {t : ValueType} {slot : String} {v : ValType} :
    t.slotType slot = .ok v ↔ t.valType? = some v := by
  cases t <;> simp [slotType, machineType, machineType?, valType?, MachineType.valType?, bind,
    Except.bind]

/-- Slots of types that have values get those types. -/
theorem mapM_slotType {ts : List ValueType} (slot : String) {vs : List ValType}
    (h : ts.map valType? = vs.map some) : ts.mapM (·.slotType slot) = .ok vs := by
  induction ts generalizing vs with
  | nil =>
    obtain rfl : vs = [] := by simpa using h.symm
    rfl
  | cons t ts ih =>
    obtain _ | ⟨v, vs⟩ := vs
    · cases h
    · simp only [List.map_cons, List.cons.injEq] at h
      rw [List.mapM_cons, slotType_eq_ok_iff.2 h.1, ih h.2]
      rfl

theorem exists_valTypes {ts : List ValueType} (h : ∀ t ∈ ts, t.valType?.isSome) :
    ∃ vs, ts.map valType? = List.map some vs := by
  induction ts with
  | nil => exact ⟨[], rfl⟩
  | cons t ts ih =>
    obtain ⟨v, hv⟩ := Option.isSome_iff_exists.1 (h t List.mem_cons_self)
    obtain ⟨vs, hvs⟩ := ih fun t ht => h t (List.mem_cons_of_mem _ ht)
    exact ⟨v :: vs, by rw [List.map_cons, hv, hvs, List.map_cons]⟩

end ValueType

namespace Function

theorem lowerBody_eq (f : Function) : f.lowerBody = f.body.lowerIn {} := by
  unfold lowerBody
  rw [Instruction.on_lower]
  cases f.body.lowerIn {} <;> rfl

/-- Registering is all that is left to do once the parts stand. -/
theorem assemble_of_assembled {f : Function} {parts : Assembled} (h : f.assembled = .ok parts)
    (moduleName : String) (r : Registry) :
    (f.assemble moduleName).on r = (.ok r.functionCount,
      (r.addFunction (qualifiedName moduleName f.name) parts.type parts.locals parts.body).2) := by
  unfold assemble
  rw [h, ← r.addFunction_index (qualifiedName moduleName f.name) parts.type parts.locals parts.body]
  rfl

end Function

/-! ## Validity -/

namespace Assembled

/-- The operators of the code, up to its last one. -/
def operators (f : Assembled) : List Operator := f.body.operators ++ [.finish]

/-- The types of all slots, parameters first. -/
def slots (f : Assembled) : List ValType := f.type.params ++ f.locals

/-- What the code is checked against in a module of the given context. -/
def scope (f : Assembled) (c : Context) : Scope :=
  { c with locals := f.slots.toArray, params := f.type.params.length }

/-- In a module of the given context, the code is that of a function of its type. -/
def Valid (f : Assembled) (c : Context) : Prop :=
  checkBody (f.scope c) f.type.results (f.operators.map .basic) = .ok ()

theorem hasSlots_scope (f : Assembled) (c : Context) : (f.scope c).HasSlots f.slots := by
  intro i t h
  simp [scope, h]

/-- A body that leaves what a function gives back is code of the function. -/
theorem valid_of_hasEffect {f : Assembled} {result : Option ValType} {e : Effect}
    (hr : f.type.results = result.toList) (h : f.body.HasEffect f.slots [] e) (he : e.Fits result)
    (c : Context) : f.Valid c := by
  obtain ⟨c', hrun, hy⟩ := Node.stepsBasic_operators (f.hasSlots_scope c) f.body
    (labelled_nil [.entered .body result]) h
  have hinit : initial f.type.results = [.entered .body result] := by
    rw [hr]
    rfl
  unfold Valid checkBody
  rw [hinit, steps_map_basic, operators, stepsBasic_append_of_ok hrun, stepsBasic_singleton,
    stepBasic_finish_body _ hy he]
  rfl

end Assembled

/-! ## Well-typed functions -/

/-- What becomes of a well-typed function whose body has the given effect. -/
structure Function.AssembledTo (f : Function) (e : Effect) (parts : Assembled) : Prop where
  assembled : f.assembled = .ok parts
  params : f.params.map ValueType.valType? = parts.type.params.map some
  locals : f.locals.map ValueType.valType? = parts.locals.map some
  results : f.returnType.valType?.toList = parts.type.results
  effect : HasEffect f.slots [] f.body e
  lowered : f.body.lowerIn {} = .ok parts.body
  body : parts.body.HasEffect parts.slots [] e
  fits : e.Fits f.returnType.valType?

theorem Function.AssembledTo.slots {f : Function} {e : Effect} {parts : Assembled}
    (h : f.AssembledTo e parts) : f.slots.map ValueType.valType? = parts.slots.map some := by
  rw [Function.slots, Assembled.slots, List.map_append, List.map_append, h.params, h.locals]

theorem Function.WellTyped.exists_assembledTo {f : Function} (h : f.WellTyped) :
    ∃ e parts, f.AssembledTo e parts := by
  obtain ⟨ps, hps⟩ := ValueType.exists_valTypes fun t ht => h.slots t (List.mem_append_left _ ht)
  obtain ⟨ls, hls⟩ := ValueType.exists_valTypes fun t ht => h.slots t (List.mem_append_right _ ht)
  obtain ⟨m, e, hm, he, hfit⟩ := h.body
  have hslots : f.slots.map ValueType.valType? = (ps ++ ls).map some := by
    rw [Function.slots, List.map_append, hps, hls, List.map_append]
  obtain ⟨n, hn, hne⟩ := f.body.lowerIn_hasEffect hslots .nil he
  have hassembled : f.assembled = .ok ⟨⟨ps, m.valType?.toList⟩, ls, n⟩ := by
    unfold Function.assembled
    rw [ValueType.mapM_slotType _ hps, hm, f.lowerBody_eq, hn, ValueType.mapM_slotType _ hls]
    rfl
  have hresult := ValueType.valType?_of_machineType hm
  refine ⟨e, ⟨⟨ps, m.valType?.toList⟩, ls, n⟩, ?_⟩
  exact {
    assembled := hassembled
    params := hps
    locals := hls
    results := congrArg Option.toList hresult
    effect := he
    lowered := hn
    body := hne
    fits := hresult ▸ hfit }

/-- A well-typed function is assembled and registered under its qualified name. Its slots and its
result are of the types that its own stand for, and its code is valid in any module. -/
theorem Function.WellTyped.assemble_valid {f : Function} (h : f.WellTyped) (moduleName : String)
    (r : Registry) (c : Context) :
    ∃ parts : Assembled, f.assembled = .ok parts ∧
      f.params.map ValueType.valType? = parts.type.params.map some ∧
      f.locals.map ValueType.valType? = parts.locals.map some ∧
      f.returnType.valType?.toList = parts.type.results ∧
      (f.assemble moduleName).on r = (.ok r.functionCount,
        (r.addFunction (qualifiedName moduleName f.name) parts.type parts.locals parts.body).2) ∧
      parts.Valid c := by
  obtain ⟨e, parts, ha⟩ := h.exists_assembledTo
  refine ⟨parts, ha.assembled, ha.params, ha.locals, ha.results,
    Function.assemble_of_assembled ha.assembled moduleName r, ?_⟩
  exact Assembled.valid_of_hasEffect ha.results.symm ha.body ha.fits c

/-- A function that leaves its block from inside an if and from inside an operand. -/
def leaving : Function where
  name := "leaving"
  params := [.int32]
  returnType := .int32
  locals := [.float64]
  body := .block "out" .int32
    [.ifThen (.localGet 0 .int32) (.breakWith "out" (.constInt32 1)),
     .binaryOp .add .int32 (.localGet 0 .int32) (.breakWith "out" (.constInt32 2))]

theorem leaving_wellTyped : leaving.WellTyped where
  slots := by decide
  body := by
    have hget : HasEffect leaving.slots [("out", .int32)] (.localGet 0 .int32) (.value .i32) :=
      .localGet rfl rfl rfl
    have hbreak : ∀ n, HasEffect leaving.slots [("out", .int32)] (.breakWith "out" (.constInt32 n))
        .diverge := fun n => .breakWith rfl rfl .constInt32 (.inl rfl)
    refine ⟨.word32, .value .i32, rfl, .blockValue rfl (.cons (e := .void) ?_ (.inl rfl)
      (.last (e := .value .i32) ?_ (.inl rfl))), .inl rfl⟩
    · exact .ifThen hget (.inl rfl) (hbreak 1)
    · exact .binaryOp rfl rfl hget (.inl rfl) (hbreak 2) (.inr rfl)

theorem leaving_assemble_valid :
    leaving.WellTyped ∧ ∃ parts : Assembled, leaving.assembled = .ok parts ∧
      leaving.params.map ValueType.valType? = parts.type.params.map some ∧
      leaving.locals.map ValueType.valType? = parts.locals.map some ∧
      leaving.returnType.valType?.toList = parts.type.results ∧
      (leaving.assemble "m").on {} = (.ok 0,
        (Registry.addFunction {} "mleaving" parts.type parts.locals parts.body).2) ∧
      parts.Valid {} :=
  ⟨leaving_wellTyped, Function.WellTyped.assemble_valid leaving_wellTyped "m" {} {}⟩

end TreeWasm
