import BootImage.Error
import BootImage.Utf8

/-!
# The header every boot image starts with

A header has 272 bytes: a magic word, a checksum, the length of the whole image, and a name of 256
bytes. `Header.bytes` writes it and `Header.ofBytes` reads it; they undo each other
(`ofBytes_bytes`, `bytes_ofBytes`), so a header and its bytes are two views of one thing.

The checksum covers the header's own bytes with the checksum field zeroed.
-/

namespace BootImage

/-- The fixed-layout start of an image. -/
structure Header where
  /-- The magic word, which tells plain from compressed images. -/
  magic : UInt32
  /-- The checksum of the header with this field zeroed. -/
  checksum : UInt32
  /-- The claimed length of the whole image, header included. -/
  length : UInt64
  /-- The name of the image set, ended by a zero byte or by the end of the field. -/
  name : Bytes
  /-- The name field has 256 bytes. -/
  length_name : name.length = 256
  deriving DecidableEq

/-- What an accepted magic word tells. -/
inductive ImageKind where
  /-- The image is launched as it is. -/
  | plain
  /-- The image is unpacked before use. -/
  | compressed
  deriving DecidableEq, Repr

namespace Header

/-- The number of bytes of a header. -/
def size : Nat := 272

/-- The magic word of an image that is launched as it is. -/
def plainMagic : UInt32 := 0xB007C0DE

/-- The magic word of an image that is unpacked before use. -/
def compressedMagic : UInt32 := 0xC08B8355

/-- The header in the first 272 bytes of a string, missing ones counting as zero. -/
def ofBytes (bs : Bytes) : Header where
  magic := word32 (fit size bs) 0
  checksum := word32 (fit size bs) 4
  length := word64 (fit size bs) 8
  name := (fit size bs).drop 16
  length_name := by simp [size]

/-- The bytes of a header. -/
def bytes (h : Header) : Bytes :=
  toLE 4 h.magic.toNat ++ toLE 4 h.checksum.toNat ++ toLE 8 h.length.toNat ++ h.name

/-- The header of all zeros. -/
def zero : Header := ofBytes []

/-- The header at the start of an image; an image too short for one counts as unreadable. -/
def read (image : Bytes) : Except Error Header :=
  if size ≤ image.length then .ok (ofBytes image) else .error .acquisition

/-- The kind of image, if the magic word is an accepted one. -/
def kind (h : Header) : Option ImageKind :=
  if h.magic = plainMagic then some .plain
  else if h.magic = compressedMagic then some .compressed
  else none

/-- Whether the magic word is an accepted one. -/
def recognized (h : Header) : Bool := h.magic == plainMagic || h.magic == compressedMagic

/-- The characters of the set name: the name field up to its first zero byte, or as far as it is
well-formed UTF-8 if that is less. -/
def setNameChars (h : Header) : List Char := (Utf8.run (h.name.takeWhile (· ≠ 0))).1

/-- The text of the set name. -/
def setName (h : Header) : String := String.ofList h.setNameChars

/-- The bytes of the set name. -/
def setNameBytes (h : Header) : Bytes := Utf8.encode h.setNameChars

/-- A header takes 272 bytes, whatever is in it. -/
@[simp] theorem length_bytes (h : Header) : h.bytes.length = size := by
  simp [bytes, h.length_name, size]

/-- Four bytes written for a word read back as the word, wherever they stand. -/
theorem word32_append (before after : Bytes) (w : UInt32) :
    word32 (before ++ (toLE 4 w.toNat ++ after)) before.length = w := by
  have h : ((before ++ (toLE 4 w.toNat ++ after)).drop before.length).take 4 = toLE 4 w.toNat := by
    rw [List.drop_left, List.take_left' (length_toLE 4 _)]
  rw [word32, h, ofLE_toLE w.toNat_lt, UInt32.ofNat_toNat]

/-- Eight bytes written for a word read back as the word, wherever they stand. -/
theorem word64_append (before after : Bytes) (w : UInt64) :
    word64 (before ++ (toLE 8 w.toNat ++ after)) before.length = w := by
  have h : ((before ++ (toLE 8 w.toNat ++ after)).drop before.length).take 8 = toLE 8 w.toNat := by
    rw [List.drop_left, List.take_left' (length_toLE 8 _)]
  rw [word64, h, ofLE_toLE w.toNat_lt, UInt64.ofNat_toNat]

/-- A header is what is read from its own bytes. -/
@[simp] theorem ofBytes_bytes (h : Header) : ofBytes h.bytes = h := by
  have hfit : fit size h.bytes = h.bytes := fit_of_length h.length_bytes
  have h0 : word32 h.bytes 0 = h.magic := by
    simpa [bytes] using word32_append [] _ h.magic
  have h4 : word32 h.bytes 4 = h.checksum := by
    simpa [bytes] using word32_append (toLE 4 h.magic.toNat) _ h.checksum
  have h8 : word64 h.bytes 8 = h.length := by
    simpa [bytes] using
      word64_append (toLE 4 h.magic.toNat ++ toLE 4 h.checksum.toNat) h.name h.length
  have h16 : h.bytes.drop 16 = h.name := by
    have hlen : (toLE 4 h.magic.toNat ++ toLE 4 h.checksum.toNat ++ toLE 8 h.length.toNat).length
        = 16 := by simp
    rw [bytes, ← hlen, List.drop_left]
  cases h
  simp only [ofBytes, hfit, h0, h4, h8, h16]

/-- The word read from four bytes is written as these bytes. -/
theorem toLE_word32 {bs : Bytes} {pos : Nat} (h : pos + 4 ≤ bs.length) :
    toLE 4 (word32 bs pos).toNat = (bs.drop pos).take 4 := by
  have hbytes := toLE_ofLE ((bs.drop pos).take 4)
  rwa [length_window h, ← toNat_word32] at hbytes

/-- The word read from eight bytes is written as these bytes. -/
theorem toLE_word64 {bs : Bytes} {pos : Nat} (h : pos + 8 ≤ bs.length) :
    toLE 8 (word64 bs pos).toNat = (bs.drop pos).take 8 := by
  have hbytes := toLE_ofLE ((bs.drop pos).take 8)
  rwa [length_window h, ← toNat_word64] at hbytes

/-- The bytes of the header at the start of a string are the string's first 272 bytes. -/
theorem bytes_ofBytes (bs : Bytes) : (ofBytes bs).bytes = fit size bs := by
  have hlen := length_fit size bs
  simp only [bytes, ofBytes]
  rw [toLE_word32 (by rw [hlen]; decide), toLE_word32 (by rw [hlen]; decide),
    toLE_word64 (by rw [hlen]; decide)]
  rw [List.append_assoc, List.append_assoc, List.drop_zero]
  have h8 : (List.drop 8 (fit size bs)).take 8 ++ (fit size bs).drop 16 = (fit size bs).drop 8 := by
    rw [← List.drop_drop (i := 8) (j := 8), List.take_append_drop]
  have h4 : (List.drop 4 (fit size bs)).take 4 ++ (fit size bs).drop 8 = (fit size bs).drop 4 := by
    rw [← List.drop_drop (i := 4) (j := 4), List.take_append_drop]
  rw [h8, h4, List.take_append_drop]

end Header

end BootImage
