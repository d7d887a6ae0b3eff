-- SUMMARY: The sections of types, functions and exports that an image is written as pass their checks.
import TreeWasm.Proofs.Validation.Code
import TreeWasm.Wasm.Validation.Sections

/-!
# Sections of an image

The checker adds up what the entries of the sections declare. Types and functions of an image are
always accepted. Exports are accepted exactly if no name is used twice (`ExportsFrom.reads`,
`ExportsFrom.error`).
-/

namespace TreeWasm.Wasm

open Validation

/-! ## Types in the table -/

namespace FuncType

/-- The type as it is defined in a module, alone in its group. -/
def subType (t : FuncType) : SubType := ⟨true, none, .func t⟩

def definition (t : FuncType) : Definition := ⟨[t.subType], 0⟩

theorem super?_subType (t : FuncType) : t.subType.super? = none := rfl

def weight (t : FuncType) : Nat := 2 + t.params.length + t.results.length

theorem arrowWeight_eq (t : FuncType) : Summary.arrowWeight t = t.weight := rfl

end FuncType

/-! ## Plain types in the table -/

section

variable {m : Type → Type} [Monad m] (f : HeapType → m HeapType)

theorem ValType.mapHeapM_of_ref?_eq_none {t : ValType} (h : t.ref? = none) :
    t.mapHeapM f = pure t := by
  cases t with
  | ref => cases h
  | _ => rfl

variable [LawfulMonad m]

theorem mapM_mapHeapM_of_allPlain {ts : List ValType} (h : AllPlain ts) :
    ts.mapM (·.mapHeapM f) = pure ts := by
  induction ts with
  | nil => rfl
  | cons t ts ih =>
    rw [List.mapM_cons, t.mapHeapM_of_ref?_eq_none f (h t List.mem_cons_self), pure_bind,
      ih fun t ht => h t (List.mem_cons_of_mem _ ht), pure_bind]

/-- A plain type points to nothing that could be renumbered. -/
theorem FuncType.Plain.mapHeapM_subType {t : FuncType} (h : t.Plain) :
    t.subType.mapHeapM f = pure t.subType := by
  simp only [SubType.mapHeapM, Composite.mapHeapM, FuncType.mapHeapM, subType,
    mapM_mapHeapM_of_allPlain f h.params, mapM_mapHeapM_of_allPlain f h.results, Option.mapM_none,
    pure_bind]

end

theorem Types.subType?_of_definition {types : Types} {index : Nat} {t : FuncType} (ht : t.Plain)
    (h : types[index]? = some t.definition) : types.subType? index = some t.subType := by
  simp [Types.subType?, h, FuncType.definition, ht.mapHeapM_subType]

namespace Validation

theorem declaredArrow_of_definition {c : Context} {index : Nat} {t : FuncType} (ht : t.Plain)
    (h : c.types[index]? = some t.definition) : c.declaredArrow index = .ok t := by
  simp only [Context.declaredArrow, Types.composite?, Types.subType?_of_definition ht h]
  rfl

/-- A plain type is added without a look at the others. -/
theorem addGroup_subType (c : Context) (offset : Nat) {t : FuncType} (ht : t.Plain) :
    addGroup c [(offset, t.subType)] = .ok { c with types := c.types.push t.definition } := by
  have hmember : memberOf c 1 c.types.size t.subType = .ok t.subType := ht.mapHeapM_subType _
  have hlast : Types.subType? (c.types.push ⟨[t.subType], 0⟩) c.types.size = some t.subType :=
    Types.subType?_of_definition ht Array.getElem?_push_size
  have hcheck : checkSuper (c.types.push ⟨[t.subType], 0⟩) c.types.size = .ok () := by
    simp [checkSuper, Types.super?, hlast, t.super?_subType]
  simp [addGroup, hmember, hcheck, located_ok, bind, Except.bind, pure, Except.pure]
  rfl

end Validation

/-! ## Reading types -/

namespace Reads

theorem size {what : String} {limit n : Nat} (h : n ≤ limit) (hn : n < UInt32.size) :
    Reads (Reader.size what limit) (Leb128.unsigned n) n := by
  refine offset_bind fun start => (u32 hn).map ?_
  rw [if_neg (Nat.not_lt.2 h)]
  exact .pure n

/-- The types of values behind their number, and what follows them. -/
theorem values_bind {what : String} {vs : List ValType} (h : vs.length ≤ Reader.maxValues)
    {f : List ValType → Reader β} {ys : List UInt8} {b : β} (hf : Reads (f vs) ys b) :
    Reads (Reader.size what Reader.maxValues >>= fun n => Reader.times Reader.valueType n >>= f)
      (encodeVec (vs.map ValType.encode) ++ ys) b := by
  have hlength : vs.length < UInt32.size := by
    have : Reader.maxValues < UInt32.size := by decide
    omega
  have hread : Reads (Reader.times Reader.valueType vs.length) (vs.map ValType.encode).flatten
      (vs.map id) := times fun v _ => valueType v
  rw [List.map_id] at hread
  unfold encodeVec
  rw [List.length_map, List.append_assoc]
  exact (size h hlength).bind (hread.bind hf)

theorem subType {t : FuncType} (hp : t.params.length ≤ Reader.maxValues)
    (hr : t.results.length ≤ Reader.maxValues) : Reads Reader.subType t.encode t.subType := by
  have harrow : Reads Reader.arrow
      (encodeVec (t.params.map ValType.encode) ++ encodeVec (t.results.map ValType.encode) ++ [])
      t := by
    rw [List.append_assoc]
    exact values_bind hp (values_bind hr (.pure _))
  rw [List.append_nil] at harrow
  refine offset_bind fun start => byte_bind ?_
  rw [if_neg (by decide)]
  refine Reads.map (a := .func t) ?_ (.pure _)
  unfold Reader.composite
  rw [if_pos rfl]
  exact harrow.map (.pure _)

/-- A type that stands alone is its own group, known by the place that it stands at. -/
theorem group_bind {t : FuncType} (hp : t.params.length ≤ Reader.maxValues)
    (hr : t.results.length ≤ Reader.maxValues) {f : List (Nat × SubType) → Reader β} {b : β}
    (h : ∀ offset, Reads (f [(offset, t.subType)]) [] b) :
    Reads (Reader.group >>= f) t.encode b := by
  unfold Reader.group Reader.located
  rw [bind_assoc]
  refine peek_bind ?_
  rw [if_neg (by decide), bind_assoc, bind_assoc]
  apply offset_bind
  intro start
  rw [bind_assoc]
  exact (subType hp hr).map (h start)

theorem name {s : String} (h : s.toUTF8.toList.length ≤ Reader.maxNameSize) :
    Reads Reader.name (encodeName s) s := by
  have hlength : s.toUTF8.toList.length < UInt32.size := by
    have : Reader.maxNameSize < UInt32.size := by decide
    omega
  refine (u32 hlength).bind (offset_bind fun behind => ?_)
  rw [if_neg (Nat.not_lt.2 h)]
  apply take_map
  intro offset
  simp only [fromUTF8?_toUTF8]
  exact .pure s

theorem externalKind_func : Reads externalKind [0x00] .func :=
  offset_bind fun _ => byte_bind (.pure _)

end Reads

/-! ## Declarations -/

namespace Image

/-- The type of a function. -/
def typeOf? (image : Image) (index : Nat) : Option FuncType :=
  image.functions[index]?.bind (image.types[·]?)

theorem mem_types_of_typeOf? {image : Image} {index : Nat} {type : FuncType}
    (h : image.typeOf? index = some type) : type ∈ image.types := by
  obtain ⟨i, -, htype⟩ := Option.bind_eq_some_iff.1 h
  exact List.mem_of_getElem? htype

/-- How much an export counts against the limit for a module. -/
def exportWeight (image : Image) (e : Export) : Nat :=
  ((image.typeOf? e.function).map FuncType.weight).getD 0

/-- How much exports count together. -/
def exportWeights (image : Image) : List Export → Nat
  | [] => 0
  | e :: es => image.exportWeight e + image.exportWeights es

end Image

/-- Entries that fit are checked like entries one by one, to the end of the section. -/
theorem checkEntries_of_reads {kind : Section} {s s' : Summary} {what : String}
    {limit present count : Nat} {entry : Summary → Reader Summary} {bytes : List UInt8}
    (hkind : entriesOf s kind = (what, limit, present, entry)) (hcount : present + count ≤ limit)
    (h : Reads (foldEntries entry count s) bytes s') (start offset : Nat) :
    checkEntries kind start count ⟨offset, bytes⟩ s = .ok s' := by
  unfold checkEntries
  rw [hkind]
  simp only [checkCount, if_neg (Nat.not_lt.2 hcount)]
  exact h.whole offset

theorem checkEntries_of_error {kind : Section} {s : Summary} {what : String}
    {limit present count : Nat} {entry : Summary → Reader Summary} {bytes : List UInt8}
    {fault : Fault}
    {offset : Nat} (hkind : entriesOf s kind = (what, limit, present, entry))
    (hcount : present + count ≤ limit)
    (h : foldEntries entry count s ⟨offset, bytes⟩ = .error fault) (start : Nat) :
    checkEntries kind start count ⟨offset, bytes⟩ s = .error fault := by
  unfold checkEntries
  rw [hkind]
  simp only [checkCount, if_neg (Nat.not_lt.2 hcount), Reader.whole, h]
  rfl

namespace Validation.Summary

/-- The sections so far declare the types of an image, which are plain, and its functions. There is
no code yet. -/
structure Declares (s : Summary) (image : Image) : Prop where
  plain : ∀ t ∈ image.types, t.Plain
  types : s.types = (image.types.map FuncType.definition).toArray
  functions : s.functions = image.functions.toArray
  imported : s.imported = 0
  pending : s.pending = []

/-- The types of an image, and nothing else. -/
def ofTypes (image : Image) : Summary :=
  { types := (image.types.map FuncType.definition).toArray }

def ofFunctions (image : Image) : Summary :=
  { ofTypes image with functions := image.functions.toArray }

variable {s : Summary} {image : Image} {index : Nat} {t : FuncType}

theorem Declares.declaredFunction (h : s.Declares image) (ht : image.typeOf? index = some t) :
    s.declaredFunction index = .ok t := by
  obtain ⟨type, hindex, htype⟩ := Option.bind_eq_some_iff.1 ht
  have hfind : s.functions[index]? = some type := by simp [h.functions, hindex]
  have hdefinition : s.types[type]? = some t.definition := by simp [h.types, htype]
  have hplain := h.plain t (List.mem_of_getElem? htype)
  simp only [Context.declaredFunction, hfind, orFault,
    declaredArrow_of_definition hplain hdefinition, bind, Except.bind]

theorem Declares.exported (h : s.Declares image) (ht : image.typeOf? index = some t) :
    exported s .func index = .ok t.weight := by
  obtain ⟨type, hindex, htype⟩ := Option.bind_eq_some_iff.1 ht
  have hfind : s.functions[index]? = some type := by simp [h.functions, hindex]
  have hdefinition : s.types[type]? = some t.definition := by simp [h.types, htype]
  have hplain := h.plain t (List.mem_of_getElem? htype)
  simp only [Validation.exported, hfind, orFault, declaredArrow_of_definition hplain hdefinition,
    bind, Except.bind, t.arrowWeight_eq]
  rfl

end Validation.Summary

/-! ## Types and functions -/

/-- Plain types of an image are accepted. -/
theorem checkEntries_types {image : Image} (hplain : ∀ t ∈ image.types, t.Plain)
    (hcount : image.types.length ≤ Reader.maxEntries)
    (hvalues : ∀ t ∈ image.types,
      t.params.length ≤ Reader.maxValues ∧ t.results.length ≤ Reader.maxValues)
    (start offset : Nat) :
    checkEntries .types start image.types.length
      ⟨offset, (image.types.map FuncType.encode).flatten⟩ {} = .ok (.ofTypes image) := by
  let next (s : Summary) (t : FuncType) : Summary := { s with types := s.types.push t.definition }
  let inv (_ : Summary) (ts : List FuncType) : Prop := ∀ t ∈ ts, t ∈ image.types
  have hstep : ∀ s t ts, inv s (t :: ts) →
      Reads (typeEntry s) t.encode (next s t) ∧ inv (next s t) ts := by
    intro s t ts ht
    obtain ⟨hp, hr⟩ := hvalues t (ht t List.mem_cons_self)
    refine ⟨.group_bind hp hr fun offset => ?_, fun t' ht' => ht t' (List.mem_cons_of_mem _ ht')⟩
    rw [addGroup_subType _ _ (hplain t (ht t List.mem_cons_self))]
    exact .pure _
  have hfold : ∀ (ts : List FuncType) (s : Summary), ts.foldl next s =
      { s with types := s.types ++ (ts.map FuncType.definition).toArray } := by
    intro ts
    induction ts with
    | nil => simp
    | cons t ts ih => simp [ih, next]
  have hend : image.types.foldl next {} = .ofTypes image := by
    rw [hfold]
    simp [Summary.ofTypes]
  have hinv : inv {} image.types := fun _ h => h
  obtain ⟨hread, -⟩ := Reads.foldEntries inv hstep hinv
  rw [hend] at hread
  have hkind : entriesOf {} .types = ("types", Reader.maxEntries, 0, typeEntry) := rfl
  exact checkEntries_of_reads hkind (by rwa [Nat.zero_add]) hread start offset

/-- The functions of an image are accepted, given that their types are there. -/
theorem checkEntries_functions {image : Image} (hplain : ∀ t ∈ image.types, t.Plain)
    (hcount : image.functions.length ≤ Reader.maxEntries)
    (hindices : ∀ index ∈ image.functions, index < image.types.length)
    (htypes : image.types.length ≤ Reader.maxEntries) (start offset : Nat) :
    checkEntries .functions start image.functions.length
      ⟨offset, (image.functions.map Leb128.unsigned).flatten⟩ (.ofTypes image) =
        .ok (.ofFunctions image) := by
  let next (s : Summary) (index : Nat) : Summary := { s with functions := s.functions.push index }
  let inv (s : Summary) (indices : List Nat) : Prop :=
    s.types = (image.types.map FuncType.definition).toArray ∧
      ∀ index ∈ indices, index < image.types.length
  have hstep : ∀ s index indices, inv s (index :: indices) →
      Reads (functionEntry s) (Leb128.unsigned index) (next s index) ∧
        inv (next s index) indices := by
    intro s index indices ⟨hs, hi⟩
    have hlt := hi index List.mem_cons_self
    have hbits : index < UInt32.size := by
      have : Reader.maxEntries < UInt32.size := by decide
      omega
    have hdefinition : s.types[index]? = some image.types[index].definition := by simp [hs, hlt]
    refine ⟨.offset_bind fun start => (Reads.u32 hbits).map ?_, hs, fun i h => ?_⟩
    · rw [declaredArrow_of_definition (hplain _ (List.getElem_mem hlt)) hdefinition]
      exact .pure _
    · exact hi i (List.mem_cons_of_mem _ h)
  have hfold : ∀ (indices : List Nat) (s : Summary), indices.foldl next s =
      { s with functions := s.functions ++ indices.toArray } := by
    intro indices
    induction indices with
    | nil => simp
    | cons index indices ih => simp [ih, next]
  have hend : image.functions.foldl next (.ofTypes image) = .ofFunctions image := by
    rw [hfold]
    simp [Summary.ofFunctions, Summary.ofTypes]
  have hinv : inv (.ofTypes image) image.functions := ⟨rfl, hindices⟩
  obtain ⟨hread, -⟩ := Reads.foldEntries inv hstep hinv
  rw [hend] at hread
  have hkind : entriesOf (.ofTypes image) .functions =
      ("functions", Reader.maxEntries, 0, functionEntry) := rfl
  exact checkEntries_of_reads hkind (by rwa [Nat.zero_add]) hread start offset

/-! ## Exports -/

/-- The export is of a function of the image, and its name is within the limit. -/
structure Image.Exports (image : Image) (e : Export) : Prop where
  function : e.function < UInt32.size
  type : ∃ t, image.typeOf? e.function = some t
  name : e.name.toUTF8.toList.length ≤ Reader.maxNameSize

namespace Validation.Summary

/-- What an export of an image adds. -/
def addExported (s : Summary) (image : Image) (e : Export) : Summary :=
  { s with
    referable := e.function :: s.referable
    weight := s.weight + image.exportWeight e
    exportNames := e.name :: s.exportNames }

/-- No name is used twice. -/
def Fresh (s : Summary) (es : List Export) : Prop := (es.map Export.name ++ s.exportNames).Nodup

variable {s : Summary} {image : Image} {e : Export} {es : List Export}

theorem Fresh.notMem (h : s.Fresh (e :: es)) : e.name ∉ s.exportNames := by
  intro hmem
  exact (List.nodup_cons.1 h).1 (List.mem_append_right _ hmem)

theorem fresh_addExported : (s.addExported image e).Fresh es ↔ s.Fresh (e :: es) :=
  List.perm_middle.nodup_iff

/-- An export of an image is accepted unless its name is used already. -/
theorem Declares.exportEntry (hs : s.Declares image) (he : image.Exports e)
    (hweight : s.weight + image.exportWeight e < maxWeight) (offset : Nat) (rest : List UInt8) :
    Validation.exportEntry s ⟨offset, e.encode ++ rest⟩ =
      if e.name ∈ s.exportNames then .error ⟨.duplicateExport e.name, offset⟩
      else .ok (s.addExported image e, ⟨offset + e.encode.length, rest⟩) := by
  obtain ⟨t, ht⟩ := he.type
  have hw : image.exportWeight e = t.weight := by simp [Image.exportWeight, ht]
  rw [hw] at hweight
  have hlength : offset + (encodeName e.name).length + 1 + (Leb128.unsigned e.function).length =
      offset + (encodeName e.name ++ 0x00 :: Leb128.unsigned e.function).length := by
    rw [List.length_append, List.length_cons]
    omega
  have hexported {c : Cursor} :
      judge offset (Validation.exported s .func e.function) c = .ok (t.weight, c) := by
    rw [hs.exported ht]
    rfl
  have hweigh {c : Cursor} :
      judge offset ({ s with referable := e.function :: s.referable }.weigh t.weight) c =
        .ok ({ s with
          referable := e.function :: s.referable, weight := s.weight + t.weight }, c) := by
    rw [weigh, if_pos hweight]
    rfl
  unfold Validation.exportEntry
  refine (Reader.bind_of_ok rfl).trans ?_
  rw [Export.encode, List.append_assoc, Reader.bind_of_ok (Reads.name he.name _ _)]
  refine (Reader.bind_of_ok (Reads.externalKind_func _ _)).trans ?_
  refine (Reader.bind_of_ok (Reads.u32 he.function _ _)).trans ?_
  refine (Reader.bind_of_ok hexported).trans ?_
  refine (Reader.bind_of_ok hweigh).trans ?_
  unfold addExport
  split
  · rfl
  · rw [← hlength]
    simp only [addExported, hw]
    rfl

theorem Declares.addExported (hs : s.Declares image) (e : Export) :
    (s.addExported image e).Declares image :=
  ⟨hs.plain, hs.types, hs.functions, hs.imported, hs.pending⟩

end Validation.Summary

namespace Image

/-- The exports add up to less than the limit for a module. -/
def ExportsFrom (image : Image) (s : Summary) (es : List Export) : Prop :=
  s.Declares image ∧ (∀ e ∈ es, image.Exports e) ∧
    s.weight + image.exportWeights es < Summary.maxWeight

variable {image : Image} {s : Summary} {e : Export} {es : List Export}

theorem ExportsFrom.weight (h : image.ExportsFrom s (e :: es)) :
    s.weight + image.exportWeight e < Summary.maxWeight := by
  have := h.2.2
  rw [exportWeights] at this
  omega

theorem ExportsFrom.next (h : image.ExportsFrom s (e :: es)) :
    image.ExportsFrom (s.addExported image e) es := by
  obtain ⟨hs, hes, hweight⟩ := h
  rw [exportWeights, ← Nat.add_assoc] at hweight
  exact ⟨hs.addExported e, fun e' he => hes e' (List.mem_cons_of_mem _ he), hweight⟩

/-- Exports whose names are all different are accepted. -/
theorem ExportsFrom.reads (h : image.ExportsFrom s es) (hf : s.Fresh es) :
    Reads (foldEntries exportEntry es.length s) (es.map Export.encode).flatten
        (es.foldl (·.addExported image) s) ∧
      (es.foldl (·.addExported image) s).Declares image := by
  let inv (s : Summary) (es : List Export) : Prop := image.ExportsFrom s es ∧ s.Fresh es
  have hstep : ∀ s e es, inv s (e :: es) →
      Reads (exportEntry s) e.encode (s.addExported image e) ∧ inv (s.addExported image e) es := by
    intro s e es ⟨h, hf⟩
    refine ⟨fun offset rest => ?_, h.next, Summary.fresh_addExported.2 hf⟩
    rw [h.1.exportEntry (h.2.1 e List.mem_cons_self) h.weight, if_neg hf.notMem]
  obtain ⟨hread, hend⟩ := Reads.foldEntries inv hstep (⟨h, hf⟩ : inv s es)
  exact ⟨hread, hend.1.1⟩

/-- Otherwise the first name that is used again is a fault. -/
theorem ExportsFrom.error (h : image.ExportsFrom s es) (hf : ¬s.Fresh es) (hn : s.exportNames.Nodup)
    (offset : Nat) (rest : List UInt8) :
    ∃ fault, foldEntries exportEntry es.length s ⟨offset, (es.map Export.encode).flatten ++ rest⟩ =
      .error fault := by
  induction es generalizing s offset with
  | nil => exact (hf hn).elim
  | cons e es ih =>
    have hentry := h.1.exportEntry (h.2.1 e List.mem_cons_self) h.weight offset
      ((es.map Export.encode).flatten ++ rest)
    rw [List.map_cons, List.flatten_cons, List.append_assoc]
    by_cases hmem : e.name ∈ s.exportNames
    · rw [if_pos hmem] at hentry
      exact ⟨_, Reader.bind_of_error hentry⟩
    · rw [if_neg hmem] at hentry
      obtain ⟨fault, hfault⟩ := ih h.next (mt Summary.fresh_addExported.1 hf)
        (List.nodup_cons.2 ⟨hmem, hn⟩) (offset + e.encode.length)
      exact ⟨fault, (Reader.bind_of_ok hentry).trans hfault⟩

end Image

end TreeWasm.Wasm
