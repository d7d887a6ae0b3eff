-- SUMMARY: What it takes for a JSON value to be read as a part of a document: plain values, lists, records and variants.
import TreeWasm.Document.Decoding
import TreeWasm.Document.Encoding
import TreeWasm.Proofs.Json.Nesting

/-!
# Values that denote parts

A value denotes a part in a place if it is read as the part whenever the floating-point literals in
it are finite and there is room for its arrays and objects, and is refused in every other case
(`Denotes`). The values of a list, of a record and of a variant denote what is built from the parts
that their own values denote.
-/

namespace TreeWasm.Document

open Json (Key)

/-! ## Steps that go well on a condition -/

/-- The step gives the result if the condition holds, and fails if it does not. -/
def Settles (condition : Prop) (a : α) (x : Except Fault α) : Prop :=
  (condition → x = .ok a) ∧ (¬condition → ∃ fault, x = .error fault)

namespace Settles

variable {p q : Prop} {a : α} {b : β} {x : Except Fault α} {f : α → Except Fault β}

theorem congr (h : p ↔ q) (hx : Settles p a x) : Settles q a x :=
  ⟨fun hq => hx.1 (h.2 hq), fun hq => hx.2 fun hp => hq (h.1 hp)⟩

theorem ok (a : α) : Settles True a (.ok a) := ⟨fun _ => rfl, fun h => (h trivial).elim⟩

theorem bind (hx : Settles p a x) (hf : p → Settles q b (f a)) : Settles (p ∧ q) b (x >>= f) := by
  constructor
  · rintro ⟨hp, hq⟩
    rw [hx.1 hp]
    exact (hf hp).1 hq
  · intro h
    by_cases hp : p
    · rw [hx.1 hp]
      exact (hf hp).2 fun hq => h ⟨hp, hq⟩
    · obtain ⟨fault, hfault⟩ := hx.2 hp
      exact ⟨fault, by rw [hfault]; rfl⟩

theorem bind_ok (hx : Settles p a x) (hf : f a = .ok b) : Settles p b (x >>= f) :=
  (hx.bind fun _ => hf ▸ ok b).congr ⟨And.left, fun hp => ⟨hp, trivial⟩⟩

theorem map (hx : Settles p a x) (g : α → β) : Settles p (g a) (do return g (← x)) :=
  hx.bind_ok rfl

end Settles

theorem settles_enter (depth : Nat) : Settles (depth < maxDepth) () (enter depth) := by
  unfold enter
  exact ⟨fun h => if_pos h, fun h => ⟨.malformed, if_neg h⟩⟩

/-! ## Denoting -/

/-- Every literal in the list is finite. -/
def AllFinite (literals : List Binary64) : Prop := ∀ x ∈ literals, x.isFinite

theorem allFinite_append {xs ys : List Binary64} :
    AllFinite (xs ++ ys) ↔ AllFinite xs ∧ AllFinite ys := List.forall_mem_append

/-- The numeral that is written for a finite literal in the list stands for it. -/
def AllReadBack (literals : List Binary64) : Prop :=
  ∀ x ∈ literals, x.isFinite → (Json.Number.float x).ReadsBack

/-- In a place of the given shape, the value stands for the part. Where a literal in it is not
finite, or where it nests too deep, it is refused. -/
structure Denotes (v : Json) (shape : Shape) (part : Part) (literals : List Binary64) : Prop where
  plain : AllReadBack literals → v.Plain
  settles : ∀ depth ≤ maxDepth,
    Settles (AllFinite literals ∧ depth + v.depth ≤ maxDepth) part (decode depth shape v)

/-- Plain values that denote a part without fail. -/
theorem Denotes.plainValue {v : Json} {shape : Shape} {part : Part} (hplain : v.Plain)
    (hdepth : v.depth = 0) (hdecode : ∀ depth, decode depth shape v = .ok part) :
    Denotes v shape part [] where
  plain _ := hplain
  settles depth hle := by
    rw [hdecode, hdepth]
    exact (Settles.ok part).congr ⟨fun _ => ⟨nofun, hle⟩, fun _ => trivial⟩

/-! ## Plain values -/

theorem denotes_text (s : String) : Denotes (ofText s) .text (.text s) [] :=
  .plainValue rfl rfl fun _ => rfl

theorem denotes_flag (b : Bool) : Denotes (.bool b) .flag (.flag b) [] :=
  .plainValue trivial rfl fun _ => rfl

theorem denotes_absent : Denotes .null .optionalInstruction .absent [] :=
  .plainValue trivial rfl fun _ => rfl

theorem denotes_word (n : UInt32) : Denotes (ofWord n) .word (.word n) [] := by
  have hlt : n.toNat < 4294967296 := n.toNat_lt
  refine .plainValue (Json.Number.readsBack_integer ?_ ?_) rfl fun _ => ?_
  · show -2 * (n.toNat : Int) ≤ (18446744073709551616 : Nat)
    omega
  · show (n.toNat : Int) < (18446744073709551616 : Nat)
    omega
  · have hbounded : bounded 0 4294967295 n.toNat "u32" = .ok n.toNat := if_pos (by omega)
    show (do return Part.word (.ofNat (← bounded 0 4294967295 n.toNat "u32").toNat)) = _
    rw [hbounded]
    show Except.ok (Part.word (.ofNat n.toNat)) = _
    rw [UInt32.ofNat_toNat]

theorem denotes_int32 (n : Int32) : Denotes (ofInt32 n) .int32 (.int32 n) [] := by
  have hleast : -2147483648 ≤ n.toInt := n.le_toInt
  have hgreatest : n.toInt < 2147483648 := n.toInt_lt
  refine .plainValue (Json.Number.readsBack_integer ?_ ?_) rfl fun _ => ?_
  · show -2 * n.toInt ≤ (18446744073709551616 : Nat)
    omega
  · show n.toInt < (18446744073709551616 : Nat)
    omega
  · have hbounded : bounded (-2147483648) 2147483647 n.toInt "i32" = .ok n.toInt :=
      if_pos (by omega)
    show (do return Part.int32 (.ofInt (← bounded (-2147483648) 2147483647 n.toInt "i32"))) = _
    rw [hbounded]
    show Except.ok (Part.int32 (.ofInt n.toInt)) = _
    rw [Int32.ofInt_toInt]

theorem denotes_valueType (t : ValueType) :
    Denotes (ofValueType t) .valueType (.valueType t) [] := by
  refine .plainValue rfl rfl fun _ => ?_
  show decodeValueType t.name = _
  rw [decodeValueType, ValueType.ofName?_name]

theorem denotes_operator (op : Arith) : Denotes (ofOperator op) .operator (.operator op) [] := by
  refine .plainValue rfl rfl fun _ => ?_
  show decodeOperator op.name = _
  rw [decodeOperator, Arith.ofName?_name]

/-- A literal that is not finite is written as null, which its place refuses. -/
theorem denotes_float (x : Binary64) : Denotes (ofFloat x) .float64 (.float64 x) [x] := by
  have hall : AllFinite [x] ↔ x.isFinite := List.forall_mem_singleton
  unfold ofFloat
  split
  · next hfinite =>
    refine ⟨fun h => h x List.mem_cons_self hfinite, fun depth hle => ?_⟩
    exact (Settles.ok _).congr ⟨fun _ => ⟨hall.2 hfinite, hle⟩, fun _ => trivial⟩
  · next hfinite =>
    refine ⟨fun _ => trivial, fun _ _ => ⟨fun h => (hfinite (hall.1 h.1)).elim, fun _ => ⟨_, rfl⟩⟩⟩

/-! ## Lists -/

/-- The values denote the parts, one by one. -/
inductive DenoteAll (shape : Shape) : List Json → List Part → List Binary64 → Prop
  | nil : DenoteAll shape [] [] []
  | cons {v : Json} {part : Part} {xs : List Binary64} {vs : List Json} {parts : List Part}
      {ys : List Binary64} (head : Denotes v shape part xs) (tail : DenoteAll shape vs parts ys) :
      DenoteAll shape (v :: vs) (part :: parts) (xs ++ ys)

namespace DenoteAll

variable {shape : Shape} {vs : List Json} {parts : List Part} {xs : List Binary64}

theorem plain (h : DenoteAll shape vs parts xs) (hreads : AllReadBack xs) : Json.AllPlain vs := by
  induction h with
  | nil => trivial
  | cons head _ ih =>
    obtain ⟨hhead, htail⟩ := List.forall_mem_append.1 hreads
    exact ⟨head.plain hhead, ih htail⟩

theorem settles (h : DenoteAll shape vs parts xs) {depth : Nat} (hle : depth ≤ maxDepth) :
    Settles (AllFinite xs ∧ depth + Json.elementsDepth vs ≤ maxDepth) parts
      (decodeAll depth shape vs) := by
  induction h with
  | nil => exact (Settles.ok []).congr ⟨fun _ => ⟨nofun, hle⟩, fun _ => trivial⟩
  | cons head _ ih =>
    rw [decodeAll, Json.elementsDepth, allFinite_append]
    refine ((head.settles depth hle).bind fun _ => ih.map _).congr ?_
    grind

theorem denotes (h : DenoteAll shape vs parts xs) :
    Denotes (.array vs) (.list shape) (.list parts) xs where
  plain := h.plain
  settles depth hle := by
    rw [decode, Json.depth]
    refine ((settles_enter depth).bind fun hlt => (h.settles hlt).map _).congr ?_
    grind

end DenoteAll

/-! ## Records -/

/-- The members are named like the fields, and their values denote the parts. -/
inductive DenoteFields : List Field → List (String × Json) → List Part → List Binary64 → Prop
  | nil : DenoteFields [] [] [] []
  | cons {f : Field} {v : Json} {part : Part} {xs : List Binary64} {fields : List Field}
      {members : List (String × Json)} {parts : List Part} {ys : List Binary64}
      (head : Denotes v f.shape part xs) (tail : DenoteFields fields members parts ys) :
      DenoteFields (f :: fields) ((f.name, v) :: members) (part :: parts) (xs ++ ys)

/-- The members of an object under the given names. -/
def named (members : List (String × Json)) : List (Key × Json) :=
  members.map fun (name, v) => (.text name, v)

/-- The parts of the fields are noted in front of what was seen before them. -/
def note (seen : List (String × Part)) : List Field → List Part → List (String × Part)
  | f :: fields, part :: parts => note ((f.name, part) :: seen) fields parts
  | _, _ => seen

theorem lookup_note {name : String} (seen : List (String × Part)) {fields : List Field}
    (h : name ∉ fields.map Field.name) (parts : List Part) :
    (note seen fields parts).lookup name = seen.lookup name := by
  induction fields generalizing seen parts with
  | nil => rfl
  | cons f fields ih =>
    cases parts with
    | nil => rfl
    | cons part parts =>
      rw [List.map_cons, List.mem_cons, not_or] at h
      rw [note, ih _ h.2, List.lookup_cons, beq_false_of_ne h.1]

theorem find?_of_nodup {fields : List Field} (hnodup : (fields.map Field.name).Nodup) {f : Field}
    (hf : f ∈ fields) : fields.find? (·.name == f.name) = some f := by
  induction fields with
  | nil => cases hf
  | cons g fields ih =>
    rw [List.map_cons, List.nodup_cons] at hnodup
    cases hf with
    | head => exact List.find?_cons_of_pos (beq_self_eq_true f.name)
    | tail _ hf =>
      have hne : g.name ≠ f.name := fun heq => hnodup.1 (heq ▸ List.mem_map_of_mem hf)
      rw [List.find?_cons_of_neg (by simpa using hne)]
      exact ih hnodup.2 hf

namespace DenoteFields

variable {fields : List Field} {members : List (String × Json)} {parts : List Part}
variable {xs : List Binary64}

theorem plain (h : DenoteFields fields members parts xs) (hreads : AllReadBack xs) :
    Json.MembersPlain (named members) := by
  induction h with
  | nil => trivial
  | cons head _ ih =>
    obtain ⟨hhead, htail⟩ := List.forall_mem_append.1 hreads
    exact ⟨⟨_, rfl⟩, head.plain hhead, ih htail⟩

/-- What was noted of the fields gives their parts back, in order. -/
theorem collect_note (h : DenoteFields fields members parts xs)
    (hnodup : (fields.map Field.name).Nodup) (seen : List (String × Part)) :
    collect (note seen fields parts) fields = .ok parts := by
  induction h generalizing seen with
  | nil => rfl
  | @cons f _ part _ _ _ _ _ _ _ ih =>
    rw [List.map_cons, List.nodup_cons] at hnodup
    rw [note, collect, lookup_note _ hnodup.1, List.lookup_cons_self]
    show (do return part :: (← collect _ _)) = _
    rw [ih hnodup.2]
    rfl

/-- The members are read one after another, each as the field of its name. -/
theorem settles_members (h : DenoteFields fields members parts xs)
    (hnodup : (fields.map Field.name).Nodup) {known : List Field}
    (hknown : ∀ f ∈ fields, known.find? (·.name == f.name) = some f) {depth : Nat}
    (hle : depth ≤ maxDepth) {seen : List (String × Part)}
    (hseen : ∀ f ∈ fields, seen.lookup f.name = none) :
    Settles (AllFinite xs ∧ depth + Json.membersDepth (named members) ≤ maxDepth)
      (note seen fields parts) (decodeMembers depth known seen (named members)) := by
  induction h generalizing seen with
  | nil => exact (Settles.ok seen).congr ⟨fun _ => ⟨nofun, hle⟩, fun _ => trivial⟩
  | @cons f v part xs fields members parts ys head _ ih =>
    rw [List.map_cons, List.nodup_cons] at hnodup
    have hrest : ∀ g ∈ fields, ((f.name, part) :: seen).lookup g.name = none := by
      intro g hg
      have hne : g.name ≠ f.name := fun heq => hnodup.1 (heq ▸ List.mem_map_of_mem hg)
      rw [List.lookup_cons, beq_false_of_ne hne]
      exact hseen g (List.mem_cons_of_mem f hg)
    have htail := ih hnodup.2 (fun g hg => hknown g (List.mem_cons_of_mem f hg)) hrest
    have hstep : decodeMembers depth known seen (named ((f.name, v) :: members)) =
        (decode depth f.shape v >>= fun part =>
          decodeMembers depth known ((f.name, part) :: seen) (named members)) := by
      show decodeMembers depth known seen ((Key.text f.name, v) :: named members) = _
      rw [decodeMembers, hknown f List.mem_cons_self, hseen f List.mem_cons_self]
      rfl
    have hdepth : Json.membersDepth (named ((f.name, v) :: members)) =
        max v.depth (Json.membersDepth (named members)) := rfl
    rw [hstep, hdepth, allFinite_append]
    refine ((head.settles depth hle).bind fun _ => htail).congr ?_
    grind

theorem denotes {r : Record} {part : Part} (h : DenoteFields r.fields members parts xs)
    (hnodup : (r.fields.map Field.name).Nodup) (hbuild : r.build parts = some part) :
    Denotes (record members) (.record r) part xs where
  plain := h.plain
  settles depth hle := by
    have hknown : ∀ f ∈ r.fields, r.fields.find? (·.name == f.name) = some f :=
      fun f hf => find?_of_nodup hnodup hf
    have hbuilt : (do built (r.build (← collect (note [] r.fields parts) r.fields))) =
        Except.ok part := by
      rw [h.collect_note hnodup]
      show built (r.build parts) = _
      rw [hbuild]
      rfl
    have hstep : decode depth (.record r) (record members) =
        (enter depth >>= fun _ => decodeMembers (depth + 1) r.fields [] (named members) >>=
          fun seen => do built (r.build (← collect seen r.fields))) := rfl
    have hdepth : (record members).depth = Json.membersDepth (named members) + 1 := rfl
    rw [hstep, hdepth]
    refine ((settles_enter depth).bind fun hlt =>
      (h.settles_members hnodup hknown hlt fun _ _ => rfl).bind_ok hbuilt).congr ?_
    grind

end DenoteFields

/-! ## Variants -/

/-- An instruction is written under the name of its kind. -/
theorem Denotes.variant {kind : Kind} {payload : Json} {part : Part} {xs : List Binary64}
    {i : Instruction} (h : Denotes payload (payloadShape kind) part xs)
    (hbuild : buildVariant kind part = some (.instruction i)) :
    Denotes (variant kind payload) .instruction (.instruction i) xs where
  plain hreads := ⟨⟨_, rfl⟩, h.plain hreads, trivial⟩
  settles depth hle := by
    have hkind : decodeKind kind.name = .ok kind := by rw [decodeKind, Kind.ofName?_name]
    have hbuilt : built (buildVariant kind part) = .ok (.instruction i) := by
      rw [hbuild]
      rfl
    have hstep : decode depth .instruction (Document.variant kind payload) =
        (enter depth >>= fun _ => decodeKind kind.name >>= fun kind =>
          decode (depth + 1) (payloadShape kind) payload >>= fun part =>
            built (buildVariant kind part)) := rfl
    have hdepth : (Document.variant kind payload).depth = payload.depth + 1 :=
      congrArg (· + 1) (Nat.max_eq_left (Nat.zero_le payload.depth))
    rw [hstep, hdepth, hkind]
    refine ((settles_enter depth).bind fun hlt =>
      (h.settles (depth + 1) hlt).bind_ok hbuilt).congr ?_
    grind

/-- Where an instruction may be absent, one that is there is read like anywhere else. -/
theorem Denotes.optional {members : List (Key × Json)} {part : Part} {xs : List Binary64}
    (h : Denotes (.object members) .instruction part xs) :
    Denotes (.object members) .optionalInstruction part xs :=
  ⟨h.plain, h.settles⟩

end TreeWasm.Document
