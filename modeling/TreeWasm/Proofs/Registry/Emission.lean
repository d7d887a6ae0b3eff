-- SUMMARY: The bytes of a registry, entry by entry, and what of them comes from which registration.
import Mathlib.Data.List.Basic
import TreeWasm.Proofs.Binary.Registry
import TreeWasm.Proofs.Binary.Sections
import TreeWasm.Proofs.Registry.Log

/-!
# Bytes of logs

The bytes of a registry are sections that list types, type indices, exports, code and names
(`Registry.encode_eq`). All of these entries but the types belong to functions, one each, and they
are known from the registrations that made the registry (`Registry.Records.emits`), and so is what
the bytes are read back as (`Registry.Records.contents_eq`); only the order of the types depends on
what was registered first. A registry that was made by registrations alone has no other types than
theirs (`Registry.Consistent.types_registerAll`).
-/

namespace TreeWasm

open Wasm

/-! ## Entries -/

/-- What the sections of a binary list. Code is given by its bytes. -/
structure Entries where
  types : List FuncType
  /-- For each function the index of its type. -/
  functions : List UInt32
  exports : List (String × UInt32)
  codes : List (List UInt8)
  /-- Function indices with the names that tools show for them. -/
  names : List (UInt32 × String)

namespace Entries

/-- The sections with these entries, in order. A section without entries is left out. -/
def sections (e : Entries) : List (UInt8 × List UInt8) :=
  sectionOf 0x01 (e.types.map FuncType.encode) ++
    sectionOf 0x03 (e.functions.map fun index => Leb128.unsigned index.toNat) ++
    sectionOf 0x07 (e.exports.map fun (name, index) =>
      encodeName name ++ 0x00 :: Leb128.unsigned index.toNat) ++
    sectionOf 0x0a (e.codes.map encodeSized) ++
    sectionOfNames (e.names.map fun (index, name) => (index.toNat, name))

/-- The signatures of the functions in order. There is none where an index leads nowhere. -/
def signatures (e : Entries) : List (Option FuncType) :=
  e.functions.map fun index => e.types[index.toNat]?

end Entries

/-- What is numbered in a list may be changed one by one. -/
theorem map_mapIdx (f : β → γ) (make : Nat → α → β) (xs : List α) :
    (xs.mapIdx make).map f = xs.mapIdx fun i x => f (make i x) := by
  refine List.ext_getElem? fun i => ?_
  simp [List.getElem?_mapIdx, Function.comp_def]

theorem mapIdx_map (f : α → β) (make : Nat → β → γ) (xs : List α) :
    (xs.map f).mapIdx make = xs.mapIdx fun i x => make i (f x) := by
  refine List.ext_getElem? fun i => ?_
  simp [List.getElem?_mapIdx, Function.comp_def]

/-- The entries of the binary. -/
def Registry.entries (r : Registry) (settings : Settings) : Entries where
  types := r.types.toList
  functions := r.functions.toList.map Registered.typeIndex
  exports := if settings.exportFunctions then r.names.mapIdx fun i name => (name, .ofNat i) else []
  codes := r.functions.toList.map fun f => (codeOf f).encode
  names := if settings.emitNameSection then r.names.mapIdx fun i name => (.ofNat i, name) else []

/-- The bytes are the header and the sections with these entries. -/
theorem Registry.encode_eq (r : Registry) (settings : Settings) :
    r.encode settings = encodeSections (r.entries settings).sections := by
  have hexports : (r.image settings).exports.map Export.encode =
      (r.entries settings).exports.map fun (name, index) =>
        encodeName name ++ 0x00 :: Leb128.unsigned index.toNat := by
    dsimp only [image, entries]
    split
    · rw [map_mapIdx, map_mapIdx]
      rfl
    · rfl
  have hnames : (r.image settings).names =
      (r.entries settings).names.map fun (index, name) => (index.toNat, name) := by
    dsimp only [image, entries]
    split
    · rw [map_mapIdx]
      rfl
    · rfl
  unfold encode
  rw [Image.encode_eq, Image.sections, hexports, hnames]
  simp [Entries.sections, entries, image, Function.comp_def]

/-! ## Registrations -/

/-- The code of a function that was registered so. -/
def Registration.code (g : Registration) : Code := g.body.code g.locals

/-- The entries are those of functions that were registered so, in order: each has the index of its
signature in the table, its code, and an export and a name at its own index if the settings ask for
them. The table has all signatures, each once. -/
structure Emits (settings : Settings) (log : List Registration) (e : Entries) : Prop where
  nodup_types : e.types.Nodup
  mem_types (type : FuncType) : type ∈ e.types ↔ ∃ g ∈ log, g.type = type
  functions : e.functions = log.map fun g => .ofNat (e.types.idxOf g.type)
  codes : e.codes = log.map fun g => g.code.encode
  exports : e.exports =
    if settings.exportFunctions then log.mapIdx fun i g => (g.name, .ofNat i) else []
  names : e.names =
    if settings.emitNameSection then log.mapIdx fun i g => (.ofNat i, g.name) else []

/-- What is read off the bytes of functions that were registered so. -/
def contentsOf (settings : Settings) (types : List FuncType) (log : List Registration) :
    List Contents :=
  Contents.unlessEmpty .types types ++
    (Contents.unlessEmpty .functions (log.map fun g => types.idxOf g.type) ++
    ((if settings.exportFunctions then
      Contents.unlessEmpty .exports (log.mapIdx fun i g => ⟨g.name, i⟩) else []) ++
    (Contents.unlessEmpty .codes (log.map fun g =>
      ⟨g.locals, (g.body.operators ++ [Operator.finish]).map .basic⟩) ++
    if settings.emitNameSection then
      Contents.unlessEmpty .names (log.mapIdx fun i g => (i, g.name)) else [])))

/-- As long as type indices do not repeat, each function has its own signature. -/
theorem Emits.signatures {settings : Settings} {log : List Registration} {e : Entries}
    (h : Emits settings log e) (hsize : e.types.length ≤ UInt32.size) :
    e.signatures = log.map fun g => some g.type := by
  rw [Entries.signatures, h.functions, List.map_map]
  refine List.map_congr_left fun g hg => ?_
  have hlt : e.types.idxOf g.type < e.types.length :=
    List.idxOf_lt_length_iff.2 ((h.mem_types g.type).2 ⟨g, hg, rfl⟩)
  show e.types[(UInt32.ofNat (e.types.idxOf g.type)).toNat]? = some g.type
  rw [UInt32.toNat_ofNat_of_lt' (Nat.lt_of_lt_of_le hlt hsize), List.getElem?_eq_getElem hlt,
    List.getElem_idxOf]

namespace Registry

variable {r : Registry} {log : List Registration}

/-- The index of a type is its position in the table. -/
theorem Consistent.findType?_eq_some_idxOf (h : r.Consistent) {type : FuncType}
    (hmem : type ∈ r.types.toList) :
    r.findType? type = some (.ofNat (r.types.toList.idxOf type)) := by
  refine (h.findType?_eq_some_iff type _).2 ⟨_, ?_, rfl⟩
  rw [← Array.getElem?_toList]
  exact List.getElem?_idxOf hmem

/-- Each function has the position of its signature as an index. -/
theorem Records.functions_eq (h : r.Records log) : r.functions.toList = log.map fun g =>
    ⟨g.name, .ofNat (r.types.toList.idxOf g.type), g.locals, g.body⟩ := by
  rw [← List.map_id r.functions.toList]
  refine h.map_eq fun g f hf => ?_
  obtain ⟨index, hi, rfl⟩ := Option.map_eq_some_iff.1 hf
  have hindex := h.consistent.findType?_eq_some_idxOf (h.consistent.mem_types_iff.2 ⟨index, hi⟩)
  rw [hi] at hindex
  cases hindex
  rfl

/-- If there are no other types than those of the log, the entries are those of the log. -/
theorem Records.emits (h : r.Records log)
    (hmem : ∀ type, type ∈ r.types.toList ↔ ∃ g ∈ log, g.type = type) (settings : Settings) :
    Emits settings log (r.entries settings) where
  nodup_types := h.consistent.nodup_types
  mem_types := hmem
  functions := by
    dsimp only [entries]
    rw [h.functions_eq, List.map_map]
    rfl
  codes := by
    dsimp only [entries]
    rw [h.functions_eq, List.map_map]
    rfl
  exports := by
    dsimp only [entries]
    rw [h.names_eq, mapIdx_map]
  names := by
    dsimp only [entries]
    rw [h.names_eq, mapIdx_map]

/-- As long as type indices do not repeat, the contents are those of the log. -/
theorem Records.contents_eq (h : r.Records log) (hsize : r.types.size ≤ UInt32.size)
    (settings : Settings) : r.contents settings = contentsOf settings r.types.toList log := by
  have hindex {g : Registration} (hg : g ∈ log) :
      (UInt32.ofNat (r.types.toList.idxOf g.type)).toNat = r.types.toList.idxOf g.type := by
    obtain ⟨i, hi⟩ := List.mem_iff_getElem?.1 hg
    obtain ⟨f, -, hf⟩ := h.getElem? hi
    obtain ⟨index, hfound, -⟩ := Option.map_eq_some_iff.1 hf
    have hlt := List.idxOf_lt_length_iff.2 (h.consistent.mem_types_iff.2 ⟨index, hfound⟩)
    exact UInt32.toNat_ofNat_of_lt' (Nat.lt_of_lt_of_le hlt hsize)
  have hfunctions : r.functions.toList.map (·.typeIndex.toNat) =
      log.map fun g => r.types.toList.idxOf g.type := by
    rw [h.functions_eq, List.map_map]
    exact List.map_congr_left fun g hg => hindex hg
  have hcodes : r.functions.toList.map bodyOf = log.map fun g =>
      ⟨g.locals, (g.body.operators ++ [Operator.finish]).map .basic⟩ := by
    rw [h.functions_eq, List.map_map]
    rfl
  unfold contents contentsOf
  rw [hfunctions, hcodes, h.names_eq, mapIdx_map, mapIdx_map]

/-! ## Types -/

theorem Consistent.types_addType (h : r.Consistent) (added : FuncType) :
    (r.addType added).2.types.toList =
      if added ∈ r.types.toList then r.types.toList else r.types.toList ++ [added] := by
  cases hfind : r.findType? added with
  | some index =>
    rw [addType_of_findType? hfind, if_pos (h.mem_types_iff.2 ⟨index, hfind⟩)]
  | none =>
    rw [if_neg (h.findType?_eq_none_iff.1 hfind)]
    simp only [Registry.addType, hfind, Array.toList_push]

theorem Consistent.mem_types_addType (h : r.Consistent) (type added : FuncType) :
    type ∈ (r.addType added).2.types.toList ↔ type ∈ r.types.toList ∨ type = added := by
  rw [h.types_addType]
  split
  · next hmem => exact ⟨.inl, fun ht => ht.elim id fun heq => heq ▸ hmem⟩
  · rw [List.mem_append, List.mem_singleton]

/-- Registering functions adds their signatures, each once, in the order in which they come up. -/
theorem Consistent.types_registerAll (h : r.Consistent) (gs : List Registration) :
    (r.registerAll gs).types.toList = gs.foldl
      (fun types g => if g.type ∈ types then types else types ++ [g.type]) r.types.toList := by
  induction gs generalizing r with
  | nil => rfl
  | cons g gs ih =>
    have hstep : (r.register g).types.toList =
        if g.type ∈ r.types.toList then r.types.toList else r.types.toList ++ [g.type] :=
      h.types_addType g.type
    rw [List.foldl_cons, ← hstep]
    exact ih (h.register g)

theorem Consistent.mem_types_registerAll (h : r.Consistent) (gs : List Registration)
    (type : FuncType) :
    type ∈ (r.registerAll gs).types.toList ↔ type ∈ r.types.toList ∨ ∃ g ∈ gs, g.type = type := by
  induction gs generalizing r with
  | nil => simp [registerAll]
  | cons g gs ih =>
    have hstep : type ∈ (r.register g).types.toList ↔ type ∈ r.types.toList ∨ type = g.type :=
      h.mem_types_addType type g.type
    show type ∈ ((r.register g).registerAll gs).types.toList ↔ _
    rw [ih (h.register g), hstep, or_assoc]
    simp [eq_comm]

end Registry

end TreeWasm
