-- SUMMARY: What assembling a program registers: its functions in order, up to the first that has a failing part.
import TreeWasm.Proofs.Assembly.Soundness
import TreeWasm.Proofs.Registry.Log

/-!
# Registrations of a program

How the functions of a program are spread over modules does not matter to assembly: it takes the
functions one by one, under their qualified names (`qualified`), registers those that stand, and
ends at the first that does not (`on_assembleProgram`). A function does not stand if one of its
parts fails, and then its first part that fails is the reason (`Function.refusal?_assembled`).
-/

namespace TreeWasm

/-! ## Parts that fail -/

/-- Why a computation is refused, if it is. -/
def refusal? : Except Refusal α → Option Refusal
  | .ok _ => none
  | .error refusal => some refusal

theorem refusal?_eq_some_iff {x : Except Refusal α} {refusal : Refusal} :
    refusal? x = some refusal ↔ x = .error refusal := by
  cases x <;> simp [refusal?]

/-- What comes after a computation can still be refused if the computation is not. -/
theorem refusal?_bind (x : Except Refusal α) (k : α → Except Refusal β) :
    refusal? (x >>= k) = match x with
      | .ok a => refusal? (k a)
      | .error refusal => some refusal := by
  cases x <;> rfl

/-- Of several computations the first that is refused counts. -/
theorem refusal?_mapM (check : α → Except Refusal β) (xs : List α) :
    refusal? (xs.mapM check) = (xs.filterMap fun x => refusal? (check x)).head? := by
  induction xs with
  | nil => rfl
  | cons x xs ih =>
    rw [List.mapM_cons, refusal?_bind, List.filterMap_cons]
    cases check x with
    | error refusal => rfl
    | ok b =>
      show refusal? (xs.mapM check >>= fun bs => pure (b :: bs)) = (xs.filterMap _).head?
      rw [← ih]
      cases xs.mapM check <;> rfl

namespace Function

/-- The function under its qualified name. -/
def qualify (moduleName : String) (f : Function) : Function :=
  { f with name := qualifiedName moduleName f.name }

/-- The refusals of the parts that fail: parameters from left to right, the return type, the body,
and local slots from left to right. -/
def refusals (f : Function) : List Refusal :=
  f.params.filterMap (fun t => refusal? (t.slotType "function parameter")) ++
    ((refusal? f.returnType.machineType).toList ++
      ((refusal? f.body.lowerRoot).toList ++
        f.locals.filterMap fun t => refusal? (t.slotType "local slot")))

/-- The first part that fails is why a function is refused. -/
theorem refusal?_assembled (f : Function) : refusal? f.assembled = f.refusals.head? := by
  have hbody : f.lowerBody = f.body.lowerRoot := f.lowerBody_eq
  unfold assembled refusals
  rw [hbody, List.head?_append, List.head?_append, List.head?_append, ← refusal?_mapM,
    ← refusal?_mapM, refusal?_bind]
  cases f.params.mapM (·.slotType "function parameter") with
  | error => rfl
  | ok params =>
    dsimp only
    rw [refusal?_bind]
    cases f.returnType.machineType with
    | error => rfl
    | ok result =>
      dsimp only
      rw [refusal?_bind]
      cases f.body.lowerRoot with
      | error => rfl
      | ok body =>
        cases f.locals.mapM (·.slotType "local slot") <;> rfl

/-! ## Registration -/

/-- What a function is registered with, or why it is not. -/
def registration (f : Function) : Except Diagnostic Registration :=
  match f.assembled with
  | .ok parts => .ok ⟨f.name, parts.type, parts.locals, parts.body⟩
  | .error refusal => .error (refusal.diagnose.withEntry .functionName f.name)

theorem registration_eq_error_iff {f : Function} {d : Diagnostic} :
    f.registration = .error d ↔
      ∃ refusal, f.refusals.head? = some refusal ∧
        refusal.diagnose.withEntry .functionName f.name = d := by
  rw [← refusal?_assembled]
  unfold registration
  cases f.assembled <;> simp [refusal?]

theorem exists_registration_iff {f : Function} :
    (∃ g, f.registration = .ok g) ↔ f.refusals = [] := by
  rw [← List.head?_eq_none_iff, ← refusal?_assembled]
  unfold registration
  cases f.assembled <;> simp [refusal?]

theorem on_assemble (f : Function) (moduleName : String) (r : Registry) :
    (f.assemble moduleName).on r = match (f.qualify moduleName).registration with
      | .ok g => (.ok r.functionCount, r.register g)
      | .error d => (.error d, r) := by
  show _ = match (f.qualify moduleName).registration with | .ok g => _ | .error d => _
  have hparts : (f.qualify moduleName).assembled = f.assembled := rfl
  unfold registration
  rw [hparts]
  cases h : f.assembled with
  | ok parts => exact assemble_of_assembled h moduleName r
  | error refusal =>
    unfold assemble
    rw [h]
    rfl

end Function

/-- What a function is registered with: its own name, the types that its slots and its result stand
for, one by one, and what its body is lowered to. A function that returns `Never` has no result. -/
structure Registration.Represents (g : Registration) (f : Function) : Prop where
  name : g.name = f.name
  params : f.params.map ValueType.valType? = g.type.params.map some
  results : f.returnType.valType?.toList = g.type.results
  locals : f.locals.map ValueType.valType? = g.locals.map some
  body : f.body.lowerRoot = .ok g.body

theorem ValueType.map_valType?_of_mapM {ts : List ValueType} {slot : String}
    {vs : List Wasm.ValType} (h : ts.mapM (·.slotType slot) = .ok vs) :
    ts.map valType? = vs.map some := by
  induction ts generalizing vs with
  | nil =>
    cases h
    rfl
  | cons t ts ih =>
    rw [List.mapM_cons] at h
    obtain ⟨v, hv, h⟩ := bind_eq_ok_iff.1 h
    obtain ⟨vs', hvs, h⟩ := bind_eq_ok_iff.1 h
    cases h
    rw [List.map_cons, List.map_cons, slotType_eq_ok_iff.1 hv, ih hvs]

theorem Function.represents_of_registration {f : Function} {g : Registration}
    (h : f.registration = .ok g) : g.Represents f := by
  unfold registration at h
  cases hparts : f.assembled with
  | error refusal =>
    rw [hparts] at h
    cases h
  | ok parts =>
    rw [hparts] at h
    cases h
    obtain ⟨params, hparams, hparts⟩ := bind_eq_ok_iff.1 hparts
    obtain ⟨result, hresult, hparts⟩ := bind_eq_ok_iff.1 hparts
    obtain ⟨body, hbody, hparts⟩ := bind_eq_ok_iff.1 hparts
    obtain ⟨locals, hlocals, hparts⟩ := bind_eq_ok_iff.1 hparts
    cases hparts
    exact {
      name := rfl
      params := ValueType.map_valType?_of_mapM hparams
      results := congrArg Option.toList (ValueType.valType?_of_machineType hresult)
      locals := ValueType.map_valType?_of_mapM hlocals
      body := f.lowerBody_eq.symm.trans hbody }

/-! ## Functions -/

/-- What functions are registered with, up to the first that is refused. -/
def accepted : List Function → List Registration
  | [] => []
  | f :: fs => match f.registration with
    | .ok g => g :: accepted fs
    | .error _ => []

/-- Why the first function that is refused is, if one is. -/
def verdict : List Function → Except Diagnostic Unit
  | [] => .ok ()
  | f :: fs => do
    let _ ← f.registration
    verdict fs

theorem on_assembleAll (moduleName : String) (fs : List Function) (r : Registry) :
    (assembleAll moduleName fs).on r =
      (verdict (fs.map (.qualify moduleName)),
        r.registerAll (accepted (fs.map (.qualify moduleName)))) := by
  induction fs generalizing r with
  | nil => rfl
  | cons f fs ih =>
    rw [assembleAll, Assembling.on_bind, f.on_assemble, List.map_cons, verdict, accepted]
    cases (f.qualify moduleName).registration with
    | error d => rfl
    | ok g => exact ih (r.register g)

theorem verdict_append (fs gs : List Function) :
    verdict (fs ++ gs) = (do verdict fs; verdict gs) := by
  induction fs with
  | nil => rfl
  | cons f fs ih =>
    rw [List.cons_append, verdict, verdict, ih]
    cases f.registration <;> rfl

/-- What comes after functions is registered only if none of them is refused. -/
theorem accepted_append (fs gs : List Function) :
    accepted (fs ++ gs) = accepted fs ++ if (verdict fs).isOk then accepted gs else [] := by
  induction fs with
  | nil => rfl
  | cons f fs ih =>
    rw [List.cons_append, accepted, accepted, verdict]
    cases f.registration with
    | error d => rfl
    | ok g => exact congrArg (g :: ·) ih

/-- Functions without a part that fails are all registered. -/
theorem verdict_eq_ok {fs : List Function} (h : ∀ f ∈ fs, f.refusals = []) :
    verdict fs = .ok () := by
  induction fs with
  | nil => rfl
  | cons f fs ih =>
    obtain ⟨_, hf⟩ := Function.exists_registration_iff.2 (h f List.mem_cons_self)
    rw [verdict, hf]
    exact ih fun f hf => h f (List.mem_cons_of_mem _ hf)

/-- The first function with a part that fails decides. -/
theorem verdict_eq_error {before after : List Function} {f : Function} {d : Diagnostic}
    (hbefore : ∀ g ∈ before, g.refusals = []) (hf : f.registration = .error d) :
    verdict (before ++ f :: after) = .error d := by
  rw [verdict_append, verdict_eq_ok hbefore, verdict, hf]
  rfl

theorem map_registration_of_verdict {fs : List Function} (h : verdict fs = .ok ()) :
    fs.map Function.registration = (accepted fs).map .ok := by
  induction fs with
  | nil => rfl
  | cons f fs ih =>
    rw [verdict] at h
    obtain ⟨g, hg, h⟩ := bind_eq_ok_iff.1 h
    rw [List.map_cons, accepted, hg, ih h, List.map_cons]

/-! ## Programs -/

/-- The functions of a program in order, under their qualified names. -/
def qualified (program : List Module) : List Function :=
  program.flatMap fun m => m.functions.map (.qualify m.name)

/-- Assembly takes the functions of a program one by one. -/
theorem on_assembleProgram (program : List Module) (r : Registry) :
    (assembleProgram program).on r =
      (verdict (qualified program), r.registerAll (accepted (qualified program))) := by
  induction program generalizing r with
  | nil => rfl
  | cons m ms ih =>
    have hsplit : qualified (m :: ms) = m.functions.map (.qualify m.name) ++ qualified ms :=
      List.flatMap_cons
    rw [assembleProgram, Assembling.on_bind, Module.assemble, on_assembleAll, hsplit,
      verdict_append, accepted_append, Registry.registerAll_append]
    cases verdict (m.functions.map (.qualify m.name)) with
    | error d => rfl
    | ok => exact ih _

end TreeWasm
