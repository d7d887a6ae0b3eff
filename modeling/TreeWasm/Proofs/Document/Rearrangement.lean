-- SUMMARY: Values that are read as the same part however their members are arranged and whichever of them are left out.
import Mathlib.Data.List.Perm.Basic
import TreeWasm.Proofs.Document.Reading

/-!
# Rearranged values

The members of an object may come in any order, and a few of them may be left out
(`Rearranged`). A value is steady if it is read as the same part all the same (`Steady`). A list, a
record or a variant is steady if the values in it are: what is noted of the members of a record does
not depend on their order (`decodeMembers_of_steady`), and the default of a field is what would
have stood there.
-/

namespace TreeWasm.Document

open Json (Key)

/-! ## Rearrangement -/

/-- A member that may be left out: no locals, no value of a break, or no alternative. -/
def Omittable (key : Key) (v : Json) : Prop :=
  key = .text "locals" ∧ v = .array [] ∨ key = .text "value" ∧ v = .null ∨
    key = .text "else_body" ∧ v = .null

theorem not_omittable {name : String} (h : name ∉ ["locals", "value", "else_body"]) (v : Json) :
    ¬Omittable (.text name) v := by
  simp only [List.mem_cons, List.not_mem_nil, or_false, not_or] at h
  rintro (⟨⟨⟩, -⟩ | ⟨⟨⟩, -⟩ | ⟨⟨⟩, -⟩)
  · exact h.1 rfl
  · exact h.2.1 rfl
  · exact h.2.2 rfl

mutual

/-- The same value up to the order of the members of objects, of which those that may be left out
can be missing. -/
inductive Rearranged : Json → Json → Prop
  | null : Rearranged .null .null
  | bool (b : Bool) : Rearranged (.bool b) (.bool b)
  | number (v : Json.Number) : Rearranged (.number v) (.number v)
  | string (text : Option String) : Rearranged (.string text) (.string text)
  | array {vs ws : List Json} (h : AllRearranged vs ws) : Rearranged (.array vs) (.array ws)
  | object {members ordered others : List (Key × Json)} (hperm : members.Perm ordered)
      (h : MembersRearranged ordered others) : Rearranged (.object members) (.object others)

inductive AllRearranged : List Json → List Json → Prop
  | nil : AllRearranged [] []
  | cons {v w : Json} {vs ws : List Json} (head : Rearranged v w) (tail : AllRearranged vs ws) :
      AllRearranged (v :: vs) (w :: ws)

/-- The same members in the same order, with some left out. -/
inductive MembersRearranged : List (Key × Json) → List (Key × Json) → Prop
  | nil : MembersRearranged [] []
  | keep {key : Key} {v w : Json} {members others : List (Key × Json)} (head : Rearranged v w)
      (tail : MembersRearranged members others) :
      MembersRearranged ((key, v) :: members) ((key, w) :: others)
  | skip {key : Key} {v : Json} {members others : List (Key × Json)} (h : Omittable key v)
      (tail : MembersRearranged members others) : MembersRearranged ((key, v) :: members) others

end

mutual

theorem rearranged_self : ∀ v : Json, v.Plain → Rearranged v v
  | .null, _ => .null
  | .bool b, _ => .bool b
  | .number v, _ => .number v
  | .string text, _ => .string text
  | .array vs, h => .array (allRearranged_self vs h)
  | .object members, h => .object (.refl members) (membersRearranged_self members h)
  | .broken, h => h.elim

theorem allRearranged_self : ∀ vs : List Json, Json.AllPlain vs → AllRearranged vs vs
  | [], _ => .nil
  | v :: vs, h => .cons (rearranged_self v h.1) (allRearranged_self vs h.2)

theorem membersRearranged_self :
    ∀ members : List (Key × Json), Json.MembersPlain members → MembersRearranged members members
  | [], _ => .nil
  | (_, v) :: members, h =>
    .keep (rearranged_self v h.2.1) (membersRearranged_self members h.2.2)

end

theorem membersPlain_iff (members : List (Key × Json)) :
    Json.MembersPlain members ↔ ∀ m ∈ members, (∃ name, m.1 = .text name) ∧ m.2.Plain := by
  induction members with
  | nil => simp [Json.MembersPlain]
  | cons m members ih => simp [Json.MembersPlain, ih, and_assoc]

mutual

/-- A rearranged value can be written as well. -/
theorem Rearranged.plain {v w : Json} : Rearranged v w → v.Plain → w.Plain
  | .null, h | .bool _, h | .number _, h | .string _, h => h
  | .array hall, h => hall.plain h
  | .object hperm hmembers, h => by
    refine hmembers.plain ((membersPlain_iff _).2 fun m hm => ?_)
    exact (membersPlain_iff _).1 h m (hperm.mem_iff.2 hm)

theorem AllRearranged.plain {vs ws : List Json} :
    AllRearranged vs ws → Json.AllPlain vs → Json.AllPlain ws
  | .nil, h => h
  | .cons head tail, h => ⟨head.plain h.1, tail.plain h.2⟩

theorem MembersRearranged.plain {members others : List (Key × Json)} :
    MembersRearranged members others → Json.MembersPlain members → Json.MembersPlain others
  | .nil, h => h
  | .keep head tail, h => ⟨h.1, head.plain h.2.1, tail.plain h.2.2⟩
  | .skip _ tail, h => tail.plain h.2.2

end

/-! ## Values that are read however they are arranged -/

/-- However the value is rearranged, it is read as the part wherever there is room for it. -/
def Steady (v : Json) (shape : Shape) (part : Part) : Prop :=
  ∀ w, Rearranged v w → ∀ depth, depth + w.depth ≤ maxDepth → decode depth shape w = .ok part

theorem enter_eq_ok {depth : Nat} (h : depth < maxDepth) : enter depth = .ok () :=
  (settles_enter depth).1 h

/-- A value that denotes a part and cannot be rearranged. -/
theorem Denotes.steady {v : Json} {shape : Shape} {part : Part} {xs : List Binary64}
    (h : Denotes v shape part xs) (hfinite : AllFinite xs) (hscalar : ∀ w, Rearranged v w → w = v) :
    Steady v shape part := by
  intro w hw depth hroom
  obtain rfl := hscalar w hw
  exact (h.settles depth (by omega)).1 ⟨hfinite, hroom⟩

theorem eq_of_rearranged_text {s : String} {w : Json} (h : Rearranged (ofText s) w) :
    w = ofText s := by
  cases h
  rfl

theorem steady_text (s : String) : Steady (ofText s) .text (.text s) :=
  (denotes_text s).steady nofun fun _ => eq_of_rearranged_text

theorem steady_valueType (t : ValueType) : Steady (ofValueType t) .valueType (.valueType t) :=
  (denotes_valueType t).steady nofun fun _ => eq_of_rearranged_text

theorem steady_operator (op : Arith) : Steady (ofOperator op) .operator (.operator op) :=
  (denotes_operator op).steady nofun fun _ => eq_of_rearranged_text

theorem steady_flag (b : Bool) : Steady (.bool b) .flag (.flag b) := by
  refine (denotes_flag b).steady nofun fun w h => ?_
  cases h
  rfl

theorem steady_absent : Steady .null .optionalInstruction .absent := by
  refine denotes_absent.steady nofun fun w h => ?_
  cases h
  rfl

theorem steady_word (n : UInt32) : Steady (ofWord n) .word (.word n) := by
  refine (denotes_word n).steady nofun fun w h => ?_
  cases h
  rfl

theorem steady_int32 (n : Int32) : Steady (ofInt32 n) .int32 (.int32 n) := by
  refine (denotes_int32 n).steady nofun fun w h => ?_
  cases h
  rfl

theorem steady_float {x : Binary64} (hfinite : AllFinite [x]) :
    Steady (ofFloat x) .float64 (.float64 x) := by
  refine (denotes_float x).steady hfinite fun w h => ?_
  unfold ofFloat at h ⊢
  split at h
  · next hx =>
    cases h
    rw [if_pos hx]
  · next hx =>
    cases h
    rw [if_neg hx]

/-! ## Lists -/

/-- The values are read as the parts, one by one. -/
inductive SteadyAll (shape : Shape) : List Json → List Part → Prop
  | nil : SteadyAll shape [] []
  | cons {v : Json} {part : Part} {vs : List Json} {parts : List Part} (head : Steady v shape part)
      (tail : SteadyAll shape vs parts) : SteadyAll shape (v :: vs) (part :: parts)

namespace SteadyAll

variable {shape : Shape} {vs ws : List Json} {parts : List Part}

theorem decodeAll_eq (h : SteadyAll shape vs parts) (hws : AllRearranged vs ws) {depth : Nat}
    (hroom : depth + Json.elementsDepth ws ≤ maxDepth) : decodeAll depth shape ws = .ok parts := by
  induction h generalizing ws with
  | nil =>
    cases hws
    rfl
  | cons head _ ih =>
    cases hws with
    | cons hw hws =>
      rw [Json.elementsDepth] at hroom
      rw [decodeAll, head _ hw depth (by omega), ih hws (by omega)]
      rfl

theorem steady (h : SteadyAll shape vs parts) : Steady (.array vs) (.list shape) (.list parts) := by
  intro w hw depth hroom
  cases hw with
  | array hws =>
    rw [Json.depth] at hroom
    rw [decode, enter_eq_ok (by omega), h.decodeAll_eq hws (by omega)]
    rfl

theorem map {α : Type} {write : α → Json} {part : α → Part}
    {as : List α} (h : ∀ a ∈ as, Steady (write a) shape (part a)) :
    SteadyAll shape (as.map write) (as.map part) := by
  induction as with
  | nil => exact .nil
  | cons a as ih =>
    exact .cons (h a List.mem_cons_self) (ih fun b hb => h b (List.mem_cons_of_mem a hb))

end SteadyAll

/-! ## Records -/

/-- A field of a record, what is written for it, and what it is read as. -/
structure Entry where
  field : Field
  value : Json
  part : Part

namespace Entry

def name (e : Entry) : String := e.field.name

def member (e : Entry) : Key × Json := (.text e.name, e.value)

/-- The field is read as the part, and where it may be left out the part is its default. -/
structure Steady (e : Entry) : Prop where
  value : Document.Steady e.value e.field.shape e.part
  omitted : Omittable (.text e.name) e.value → e.field.default? = some e.part

end Entry

/-- Members of the entries are noted behind those seen before: each entry has its part, be it the
default, and nothing else is different. -/
structure Noted (entries : List Entry) (seen seen' : List (String × Part)) : Prop where
  parts : ∀ e ∈ entries, ((seen'.lookup e.name).orElse fun _ => e.field.default?) = some e.part
  others : ∀ name ∉ entries.map Entry.name, seen'.lookup name = seen.lookup name

namespace Noted

variable {e : Entry} {entries : List Entry} {seen seen' : List (String × Part)}

theorem nil : Noted [] seen seen where
  parts := nofun
  others _ _ := rfl

theorem keep (hname : e.name ∉ entries.map Entry.name)
    (h : Noted entries ((e.name, e.part) :: seen) seen') : Noted (e :: entries) seen seen' where
  parts e' he' := by
    rcases List.mem_cons.1 he' with rfl | he'
    · rw [h.others _ hname, List.lookup_cons_self]
      rfl
    · exact h.parts e' he'
  others name hnot := by
    rw [List.map_cons, List.mem_cons, not_or] at hnot
    rw [h.others name hnot.2, List.lookup_cons, beq_false_of_ne hnot.1]

theorem skip (hname : e.name ∉ entries.map Entry.name) (hseen : seen.lookup e.name = none)
    (hdefault : e.field.default? = some e.part) (h : Noted entries seen seen') :
    Noted (e :: entries) seen seen' where
  parts e' he' := by
    rcases List.mem_cons.1 he' with rfl | he'
    · rw [h.others _ hname, hseen]
      exact hdefault
    · exact h.parts e' he'
  others name hnot := h.others name fun hmem => hnot (List.mem_cons_of_mem _ hmem)

end Noted

variable {entries : List Entry} {depth : Nat}

/-- Members of the fields are noted, each under its name, but for those that are left out. -/
theorem decodeMembers_of_steady {fields : List Field} (hsteady : ∀ e ∈ entries, e.Steady)
    (hknown : ∀ e ∈ entries, fields.find? (·.name == e.name) = some e.field)
    (hnodup : (entries.map Entry.name).Nodup) {seen : List (String × Part)}
    (hseen : ∀ e ∈ entries, seen.lookup e.name = none) {others : List (Key × Json)}
    (h : MembersRearranged (entries.map Entry.member) others)
    (hroom : depth + Json.membersDepth others ≤ maxDepth) :
    ∃ seen', decodeMembers depth fields seen others = .ok seen' ∧ Noted entries seen seen' := by
  induction entries generalizing others seen with
  | nil =>
    cases h
    exact ⟨seen, rfl, .nil⟩
  | cons e entries ih =>
    obtain ⟨hname, hnodup⟩ := List.nodup_cons.1 hnodup
    obtain ⟨he, hsteady⟩ := List.forall_mem_cons.1 hsteady
    obtain ⟨hfield, hknown⟩ := List.forall_mem_cons.1 hknown
    obtain ⟨hnone, hseen⟩ := List.forall_mem_cons.1 hseen
    cases h with
    | @keep _ _ w _ others hw h =>
      have hdepth : Json.membersDepth ((.text e.name, w) :: others) =
          max w.depth (Json.membersDepth others) := rfl
      rw [hdepth] at hroom
      -- The names of fields differ, so that noting one makes no duplicate of another.
      have hnote : ∀ e' ∈ entries, ((e.name, e.part) :: seen).lookup e'.name = none := by
        intro e' he'
        have hne : e'.name ≠ e.name := fun heq => hname (heq ▸ List.mem_map_of_mem he')
        rw [List.lookup_cons, beq_false_of_ne hne]
        exact hseen e' he'
      obtain ⟨seen', hdecode, hnoted⟩ := ih hsteady hknown hnodup hnote h (by omega)
      refine ⟨seen', ?_, hnoted.keep hname⟩
      have hvalue := he.value w hw depth (by omega)
      rw [decodeMembers, hfield, hnone]
      simp only [hvalue]
      exact hdecode
    | skip homit h =>
      obtain ⟨seen', hdecode, hnoted⟩ := ih hsteady hknown hnodup hseen h hroom
      exact ⟨seen', hdecode, hnoted.skip hname hnone (he.omitted homit)⟩

theorem collect_entries {seen : List (String × Part)} (h : ∀ e ∈ entries,
      ((seen.lookup e.name).orElse fun _ => e.field.default?) = some e.part) :
    collect seen (entries.map Entry.field) = .ok (entries.map Entry.part) := by
  induction entries with
  | nil => rfl
  | cons e entries ih =>
    have hpart : ((seen.lookup e.field.name).orElse fun _ => e.field.default?) = some e.part :=
      h e List.mem_cons_self
    rw [List.map_cons, collect, hpart, ih fun e' he' => h e' (List.mem_cons_of_mem e he')]
    rfl

theorem steady_entries {r : Record} (hfields : entries.map Entry.field = r.fields)
    (hsteady : ∀ e ∈ entries, e.Steady) (hnodup : (r.fields.map Field.name).Nodup) {part : Part}
    (hbuild : r.build (entries.map Entry.part) = some part) :
    Steady (.object (entries.map Entry.member)) (.record r) part := by
  intro w hw depth hroom
  cases hw with
  | @object _ ordered others hperm h =>
    obtain ⟨entries', rfl, hentries⟩ :
        ∃ entries' : List Entry, ordered = entries'.map Entry.member ∧ entries'.Perm entries :=
      (congrFun (congrFun (List.eq_map_comp_perm Entry.member) ordered) entries).mpr hperm.symm
    have hnames : (entries'.map Entry.name).Nodup := by
      rw [← hfields, List.map_map] at hnodup
      exact (hentries.map _).nodup_iff.2 hnodup
    have hknown : ∀ e ∈ entries', r.fields.find? (·.name == e.name) = some e.field := by
      intro e he
      have hmem : e.field ∈ r.fields := hfields ▸ List.mem_map_of_mem (hentries.mem_iff.1 he)
      exact find?_of_nodup hnodup hmem
    rw [Json.depth] at hroom
    have hroom' : depth + 1 + Json.membersDepth others ≤ maxDepth := by omega
    obtain ⟨seen, hdecode, hnoted⟩ :=
      decodeMembers_of_steady (fun e he => hsteady e (hentries.mem_iff.1 he)) hknown hnames
        (fun _ _ => List.lookup_nil) h hroom'
    have hcollect := collect_entries fun e he => hnoted.parts e (hentries.mem_iff.2 he)
    rw [hfields] at hcollect
    rw [decode, enter_eq_ok (by omega)]
    show (do
      let seen ← decodeMembers (depth + 1) r.fields [] others
      built (r.build (← collect seen r.fields))) = _
    rw [hdecode]
    show (do built (r.build (← collect seen r.fields))) = _
    rw [hcollect]
    show built (r.build (entries.map Entry.part)) = _
    rw [hbuild]
    rfl

/-- The members are named like the fields, and what is written for each is read as its part. -/
inductive SteadyFields : List Field → List (String × Json) → List Part → Prop
  | nil : SteadyFields [] [] []
  | cons {f : Field} {v : Json} {part : Part} {fields : List Field}
      {members : List (String × Json)} {parts : List Part} (head : Steady v f.shape part)
      (omitted : Omittable (.text f.name) v → f.default? = some part)
      (tail : SteadyFields fields members parts) :
      SteadyFields (f :: fields) ((f.name, v) :: members) (part :: parts)

namespace SteadyFields

variable {fields : List Field} {members : List (String × Json)} {parts : List Part}

/-- A field whose value is not one that may be left out. -/
theorem present {f : Field} {v : Json} {part : Part} (hv : ¬Omittable (.text f.name) v)
    (head : Steady v f.shape part) (tail : SteadyFields fields members parts) :
    SteadyFields (f :: fields) ((f.name, v) :: members) (part :: parts) :=
  .cons head (fun h => (hv h).elim) tail

/-- A field that may never be left out. -/
theorem required {f : Field} {v : Json} {part : Part}
    (hname : f.name ∉ ["locals", "value", "else_body"]) (head : Steady v f.shape part)
    (tail : SteadyFields fields members parts) :
    SteadyFields (f :: fields) ((f.name, v) :: members) (part :: parts) :=
  .present (not_omittable hname v) head tail

theorem exists_entries (h : SteadyFields fields members parts) :
    ∃ entries : List Entry, entries.map Entry.field = fields ∧
      entries.map Entry.member = named members ∧ entries.map Entry.part = parts ∧
        ∀ e ∈ entries, e.Steady := by
  induction h with
  | nil => exact ⟨[], rfl, rfl, rfl, nofun⟩
  | @cons f v part _ _ _ head omitted _ ih =>
    obtain ⟨entries, rfl, hmembers, rfl, hsteady⟩ := ih
    refine ⟨⟨f, v, part⟩ :: entries, rfl, congrArg _ hmembers, rfl, ?_⟩
    intro e he
    rcases List.mem_cons.1 he with rfl | he
    · exact ⟨head, omitted⟩
    · exact hsteady e he

theorem steady {r : Record} (h : SteadyFields r.fields members parts)
    (hnodup : (r.fields.map Field.name).Nodup) {part : Part} (hbuild : r.build parts = some part) :
    Steady (record members) (.record r) part := by
  obtain ⟨entries, hfields, hmembers, rfl, hsteady⟩ := h.exists_entries
  have hrecord : record members = .object (entries.map Entry.member) := congrArg _ hmembers.symm
  rw [hrecord]
  exact steady_entries hfields hsteady hnodup hbuild

end SteadyFields

/-! ## Variants -/

/-- What is written under the name of a kind is all there is of the instruction. -/
theorem Steady.variant {kind : Kind} {payload : Json} {part : Part} {i : Instruction}
    (h : Steady payload (payloadShape kind) part)
    (hbuild : buildVariant kind part = some (.instruction i)) :
    Steady (variant kind payload) .instruction (.instruction i) := by
  intro w hw depth hroom
  have hname : kind.name ∉ ["locals", "value", "else_body"] := by cases kind <;> decide
  obtain ⟨payload', hpayload, rfl⟩ : ∃ payload', Rearranged payload payload' ∧
      w = Document.variant kind payload' := by
    cases hw with
    | object hperm hmembers =>
      obtain rfl := List.perm_singleton.1 hperm.symm
      cases hmembers with
      | keep hpayload hrest =>
        cases hrest
        exact ⟨_, hpayload, rfl⟩
      | skip homit => exact (not_omittable hname _ homit).elim
  have hdepth : (Document.variant kind payload').depth = payload'.depth + 1 :=
    congrArg (· + 1) (Nat.max_eq_left (Nat.zero_le payload'.depth))
  rw [hdepth] at hroom
  have hkind : decodeKind kind.name = .ok kind := by rw [decodeKind, Kind.ofName?_name]
  show (do
    enter depth
    let kind ← decodeKind kind.name
    let part ← decode (depth + 1) (payloadShape kind) payload'
    built (buildVariant kind part)) = _
  rw [enter_eq_ok (by omega), hkind]
  show (do
    let part ← decode (depth + 1) (payloadShape kind) payload'
    built (buildVariant kind part)) = _
  rw [h payload' hpayload (depth + 1) (by omega)]
  show built (buildVariant kind part) = _
  rw [hbuild]
  rfl

theorem Steady.optional {members : List (Key × Json)} {part : Part}
    (h : Steady (.object members) .instruction part) :
    Steady (.object members) .optionalInstruction part := by
  intro w hw depth hroom
  cases hw with
  | object hperm hmembers => exact h _ (.object hperm hmembers) depth hroom

end TreeWasm.Document
