-- SUMMARY: The bytes of code that is valid for a type pass the check of a function of that type.
import TreeWasm.Proofs.Binary.Image
import TreeWasm.Proofs.Validation.Plain

/-!
# Code in binaries

What is said of operators one by one carries over to their bytes. The check of a function reads its
local slots run by run and its operators one at a time, and it comes to the end of both exactly
(`checkFunction_encode`).
-/

namespace TreeWasm.Wasm

open Validation

/-! ## Validity -/

namespace Code

/-- The types of all slots of a function with the code, parameters first. -/
def slots (c : Code) (type : FuncType) : List ValType := type.params ++ LocalRun.expand c.locals

/-- What the code is checked against as that of a function of a type. -/
def scope (c : Code) (type : FuncType) (context : Context) : Scope :=
  { context with
    locals := (c.slots type).toArray, params := type.params.length }

/-- The operators are those of a function of the type. -/
def Valid (c : Code) (type : FuncType) : Prop :=
  checkBody (c.scope type {}) type.results (c.operators.map .basic) = .ok ()

/-- No slot is of a reference type, and no frame leaves a reference. -/
structure Plain (c : Code) : Prop where
  runs : ∀ run ∈ c.locals, run.type.ref? = none
  body : ∀ op ∈ c.body, op.IsPlain

theorem Plain.operators {c : Code} (h : c.Plain) : ∀ op ∈ c.operators, op.IsPlain := by
  intro op ho
  rcases List.mem_append.1 ho with ho | ho
  · exact h.body op ho
  · obtain rfl := List.mem_singleton.1 ho
    trivial

end Code

namespace Validation

theorem checkBody_map_basic_eq_ok_iff {s : Scope} {results : List ValType} {ops : List Operator} :
    checkBody s results (ops.map .basic) = .ok () ↔
      stepsBasic s (initial results) ops = .ok [] := by
  unfold checkBody
  rw [steps_map_basic, bind_eq_ok_iff]
  constructor
  · rintro ⟨_ | ⟨c, cs⟩, hrun, h⟩
    · exact hrun
    · cases h
  · intro h
    exact ⟨[], h, rfl⟩

theorem plain_initial {results : List ValType} (h : AllPlain results) :
    Plain (initial results) := by
  intro c hc
  obtain rfl := List.mem_singleton.1 hc
  exact ⟨allPlain_nil, h⟩

end Validation

/-- Valid code without references passes in any module. -/
theorem Code.Valid.stepsBasic {c : Code} {type : FuncType} (h : c.Valid type) (hc : c.Plain)
    (ht : type.Plain) (context : Context) :
    stepsBasic (c.scope type context) (initial type.results) c.operators = .ok [] := by
  rw [← checkBody_map_basic_eq_ok_iff.1 h]
  refine stepsBasic_congr (plain_initial ht.results) ?_ ?_ hc.operators
  · rfl
  · rfl

namespace Validation

/-! ## Operators -/

/-- A branch that passes is written with an integer of 32 bits, given that so many frames are
open. -/
theorem fits_of_stepBasic {s : Scope} {cs cs' : Controls} {op : Operator}
    (h : stepBasic s cs op = .ok cs') (hlength : cs.length ≤ UInt32.size) : op.Fits := by
  cases op with
  | branch depth => exact Nat.lt_of_lt_of_le (lt_length_of_branch h) hlength
  | _ => trivial

theorem located_ok (offset : Nat) (a : α) : located offset (.ok a) = .ok a := rfl

/-- Operators that close a body are read from their bytes one by one, and each of them passes. -/
theorem checkOperators_encode {s : Scope} {ops : List Operator} (ho : ∀ op ∈ ops, op.IsPlain)
    {cs : Controls} (hp : Plain cs) (h : stepsBasic s cs ops = .ok [])
    (hsize : cs.length + ops.length ≤ UInt32.size) {fuel : Nat} (hfuel : ops.length ≤ fuel)
    (offset : Nat) :
    checkOperators (fun s _ => .ok s) s fuel cs ⟨offset, ops.flatMap Operator.encode⟩ = .ok s := by
  induction ops generalizing cs fuel offset with
  | nil =>
    cases h
    cases fuel <;> rfl
  | cons op ops ih =>
    obtain ⟨cs', hop, hops⟩ := bind_eq_ok_iff.1 (stepsBasic_cons s cs op ops ▸ h)
    obtain ⟨hp', hlength⟩ := plain_stepBasic (ho op List.mem_cons_self) hp hop
    obtain ⟨c, cs, rfl⟩ := List.exists_cons_of_ne_nil (ne_nil_of_stepBasic hop)
    rw [List.length_cons] at hfuel
    rw [List.length_cons, List.length_cons] at hsize
    rw [List.length_cons] at hlength
    obtain _ | fuel := fuel
    · cases hfuel
    have hread := Reads.operator (fits_of_stepBasic hop (by rw [List.length_cons]; omega)) offset
      (ops.flatMap Operator.encode)
    have hrest := ih (fun op h => ho op (List.mem_cons_of_mem _ h)) hp' hops (by omega)
      (Nat.le_of_succ_le_succ hfuel) (offset + op.encode.length)
    have hne : (op.encode ++ ops.flatMap Operator.encode).isEmpty = false := by
      simp [op.encode_ne_nil]
    simp only [checkOperators, List.flatMap_cons, hne, Bool.false_eq_true, ite_false, hread, bind,
      Except.bind, located_ok, checkNesting_of_stepBasic hop, step, hop, hrest]

/-! ## Functions -/

/-- The slots of a run. -/
def addRun (slots : Array ValType) (run : LocalRun) : Array ValType :=
  slots ++ Array.replicate run.count run.type

theorem foldl_addRun (runs : List LocalRun) (slots : List ValType) :
    runs.foldl addRun slots.toArray = (slots ++ LocalRun.expand runs).toArray := by
  induction runs generalizing slots with
  | nil => simp [LocalRun.expand]
  | cons run runs ih =>
    have hrun : addRun slots.toArray run =
        (slots ++ List.replicate run.count run.type).toArray := by
      simp [addRun]
    rw [List.foldl_cons, hrun, ih]
    simp [LocalRun.expand]

end Validation

namespace Reads

variable {σ α : Type} {entry : σ → Reader σ} {encode : α → List UInt8} {next : σ → α → σ}

/-- Entries are folded one by one. What is needed to read them may depend on the state and on the
entries that are still to come. -/
theorem foldEntries (inv : σ → List α → Prop)
    (h : ∀ s a as, inv s (a :: as) → Reads (entry s) (encode a) (next s a) ∧ inv (next s a) as)
    {as : List α} {s : σ} (hs : inv s as) :
    Reads (Validation.foldEntries entry as.length s) (as.map encode).flatten (as.foldl next s) ∧
      inv (as.foldl next s) [] := by
  induction as generalizing s with
  | nil => exact ⟨.pure s, hs⟩
  | cons a as ih =>
    obtain ⟨hread, hrest⟩ := h s a as hs
    obtain ⟨hreads, hend⟩ := ih hrest
    exact ⟨hread.bind hreads, hend⟩

theorem localsEntry (c : Context) {slots : Array ValType} {run : LocalRun}
    (ht : run.type.ref? = none) (h : slots.size + run.count ≤ maxLocals) :
    Reads (localsEntry c slots) run.encode (addRun slots run) := by
  have hcount : run.count < UInt32.size := by
    have : maxLocals < UInt32.size := by decide
    omega
  refine offset_bind fun start => (u32 hcount).bind ((valueType run.type).map ?_)
  rw [Context.resolve_of_ref?_eq_none ht]
  show Reads (if maxLocals < slots.size + run.count then Reader.fail .tooManyLocals start
    else pure (addRun slots run)) [] _
  rw [if_neg (Nat.not_lt.2 h)]
  exact .pure _

theorem localsEntries (c : Context) {slots : Array ValType} {runs : List LocalRun}
    (ht : ∀ run ∈ runs, run.type.ref? = none)
    (h : slots.size + (LocalRun.expand runs).length ≤ maxLocals) :
    Reads (Validation.foldEntries (Validation.localsEntry c) runs.length slots)
      (runs.map LocalRun.encode).flatten (runs.foldl addRun slots) := by
  let inv (slots : Array ValType) (runs : List LocalRun) : Prop :=
    (∀ run ∈ runs, run.type.ref? = none) ∧
      slots.size + (LocalRun.expand runs).length ≤ maxLocals
  suffices hstep : ∀ slots run runs, inv slots (run :: runs) →
      Reads (Validation.localsEntry c slots) run.encode (addRun slots run) ∧
        inv (addRun slots run) runs from (foldEntries inv hstep ⟨ht, h⟩).1
  intro slots run runs ⟨ht, h⟩
  simp only [LocalRun.expand, List.flatMap_cons, List.length_append, List.length_replicate] at h
  have hsize : (addRun slots run).size = slots.size + run.count := by simp [addRun]
  refine ⟨localsEntry c (ht run List.mem_cons_self) (by omega),
    fun run h => ht run (List.mem_cons_of_mem _ h), ?_⟩
  simp only [LocalRun.expand, hsize]
  omega

end Reads

namespace Validation

/-- The bytes of valid code pass as those of a function, unless there are too many slots. -/
theorem checkFunction_encode {c : Code} {type : FuncType} (h : c.Valid type) (hc : c.Plain)
    (ht : type.Plain) (hslots : (c.slots type).length ≤ maxLocals)
    (hlength : c.encode.length < UInt32.size) (context : Context) (offset : Nat) :
    checkFunction context type ⟨offset, c.encode⟩ = .ok () := by
  have hruns := Code.length_locals_lt hlength
  have hops : c.operators.length < UInt32.size := by
    have hle := length_le_length_flatMap_encode c.operators
    rw [c.encode_eq, List.length_append] at hlength
    omega
  have hscope : c.locals.foldl addRun type.params.toArray = (c.scope type context).locals := by
    rw [foldl_addRun]
    rfl
  have hfold : type.params.toArray.size + (LocalRun.expand c.locals).length ≤ maxLocals := by
    simpa [Code.slots] using hslots
  have hlocals := Reads.localsEntries context hc.runs hfold
  have hcheck := checkOperators_encode hc.operators (plain_initial ht.results)
    (h.stepsBasic hc ht context) (Nat.add_comm _ _ ▸ hops)
    (length_le_length_flatMap_encode c.operators)
  rw [hscope] at hlocals
  unfold checkFunction
  rw [c.encode_eq, encodeVec, List.length_map, List.append_assoc, Reads.u32 hruns]
  simp only [bind, Except.bind, hlocals _ _]
  exact congrArg (· >>= fun _ => pure ()) (hcheck _)

end Validation

end TreeWasm.Wasm
