-- SUMMARY: The bytes of an image as a header and a list of sections.
import TreeWasm.Proofs.Binary.Image

/-!
# Sections in binaries

Behind its header a binary is nothing but sections, each with an id and with contents behind their
size (`encodeSections`). The sections of an image are listed in `Image.sections`; a kind of section
that has no entries is left out.
-/

namespace TreeWasm.Wasm

/-- The bytes of a module with the given sections, each an id and what the section contains. -/
def encodeSections (sections : List (UInt8 × List UInt8)) : List UInt8 :=
  header ++ sections.flatMap fun (id, contents) => encodeSection id contents

theorem encodeSections_append (xs ys : List (UInt8 × List UInt8)) :
    encodeSections (xs ++ ys) =
      encodeSections xs ++ ys.flatMap fun (id, contents) => encodeSection id contents := by
  simp [encodeSections]

/-- A section of entries, or none if there are no entries. -/
def sectionOf (id : UInt8) (entries : List (List UInt8)) : List (UInt8 × List UInt8) :=
  if entries.isEmpty then [] else [(id, encodeVec entries)]

/-- A section of names, or none if there are no names. -/
def sectionOfNames (names : List (Nat × String)) : List (UInt8 × List UInt8) :=
  if names.isEmpty then [] else [(0x00, encodeFunctionNames names)]

theorem flatMap_sectionOf (id : UInt8) (entries : List (List UInt8)) :
    ((sectionOf id entries).flatMap fun (id, contents) => encodeSection id contents) =
      encodeEntries id entries := by
  unfold sectionOf encodeEntries
  split <;> simp

theorem flatMap_sectionOfNames (names : List (Nat × String)) :
    ((sectionOfNames names).flatMap fun (id, contents) => encodeSection id contents) =
      encodeNames names := by
  unfold sectionOfNames encodeNames
  split
  · rfl
  · exact List.append_nil _

namespace Image

/-- The sections of an image, in order. -/
def sections (image : Image) : List (UInt8 × List UInt8) :=
  sectionOf 0x01 (image.types.map FuncType.encode) ++
    sectionOf 0x03 (image.functions.map Leb128.unsigned) ++
    sectionOf 0x07 (image.exports.map Export.encode) ++
    sectionOf 0x0a (image.codes.map (encodeSized ·.encode)) ++
    sectionOfNames image.names

/-- An image is written section by section. -/
theorem encode_eq (image : Image) : image.encode = encodeSections image.sections := by
  simp only [encode, sections, encodeSections, List.flatMap_append, flatMap_sectionOf,
    flatMap_sectionOfNames, List.append_assoc]

end Image

end TreeWasm.Wasm
