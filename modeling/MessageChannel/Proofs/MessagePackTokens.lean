import MessageChannel.Body.MessagePack.Reader
import MessageChannel.Body.MessagePack.Writer
import MessageChannel.Proofs.FrameCodec
import Mathlib.Algebra.Order.Ring.Int
import Mathlib.Tactic.Zify

namespace MessageChannel.MessagePack

theorem readNat?_bigEndian {width n : Nat} (h : n < 256 ^ width) (rest : List UInt8) :
    readNat? width (bigEndian width n ++ rest) = some (n, rest) := by
  simp [readNat?, splitExactly?_bigEndian, ofBigEndian_bigEndian, Nat.mod_eq_of_lt h]

theorem readSized?_bigEndian {width : Nat} {bytes : List UInt8} (h : bytes.length < 256 ^ width)
    (rest : List UInt8) :
    readSized? width (bigEndian width bytes.length ++ (bytes ++ rest)) = some (bytes, rest) := by
  simp [readSized?, readNat?_bigEndian h, splitExactly?_append]

theorem modulus_eq (width : Nat) : modulus width = 256 ^ width := by
  rw [modulus, Nat.one_shiftLeft, Nat.pow_mul]

theorem toTwosComplement_eq (width : Nat) (n : Int) :
    toTwosComplement width n = (n % 256 ^ width).toNat := by
  simp [toTwosComplement, modulus_eq]

theorem toTwosComplement_lt (width : Nat) (n : Int) : toTwosComplement width n < 256 ^ width := by
  have hpos : (0 : Int) < 256 ^ width := Int.pow_pos (by omega)
  have hlt := Int.emod_lt_of_pos n hpos
  have hle := Int.emod_nonneg n hpos.ne'
  rw [toTwosComplement_eq]
  zify
  omega

/-- A negative number that the width has room for is read back from its two's complement. -/
theorem ofTwosComplement_toTwosComplement {width : Nat} {n : Int} (hneg : n < 0)
    (hroom : -256 ^ width ≤ 2 * n) : ofTwosComplement width (toTwosComplement width n) = n := by
  have hmod : n % 256 ^ width = n + 256 ^ width := by
    rw [← Int.add_emod_right]
    exact Int.emod_eq_of_lt (by omega) (by omega)
  rw [ofTwosComplement, modulus_eq, toTwosComplement_eq, hmod, if_neg]
  · zify
    omega
  · zify
    omega

theorem textMarkers_write (size : Nat) :
    textMarkers.write size =
      if size < 32 then [.ofNat (0xa0 + size)]
      else if size < 2 ^ 8 then 0xd9 :: bigEndian 1 size
      else if size < 2 ^ 16 then 0xda :: bigEndian 2 size
      else 0xdb :: bigEndian 4 size :=
  rfl

theorem blobMarkers_write (size : Nat) :
    blobMarkers.write size =
      if size < 2 ^ 8 then 0xc4 :: bigEndian 1 size
      else if size < 2 ^ 16 then 0xc5 :: bigEndian 2 size
      else 0xc6 :: bigEndian 4 size :=
  rfl

theorem arrayMarkers_write (size : Nat) :
    arrayMarkers.write size =
      if size < 16 then [.ofNat (0x90 + size)]
      else if size < 2 ^ 16 then 0xdc :: bigEndian 2 size
      else 0xdd :: bigEndian 4 size :=
  rfl

theorem mapMarkers_write (size : Nat) :
    mapMarkers.write size =
      if size < 16 then [.ofNat (0x80 + size)]
      else if size < 2 ^ 16 then 0xde :: bigEndian 2 size
      else 0xdf :: bigEndian 4 size :=
  rfl

namespace Token

/-- What a number is read as. -/
def ofInt (n : Int) : Token :=
  if 0 ≤ n then nat n.toNat else int n

theorem read?_short (marker : UInt8) (h : marker.toNat < 0x80) (rest : List UInt8) :
    read? (marker :: rest) = some (nat marker.toNat, rest) := by
  simp [read?, h]

theorem read?_shortMap (marker : UInt8) (hle : 0x80 ≤ marker.toNat) (hlt : marker.toNat < 0x90)
    (rest : List UInt8) : read? (marker :: rest) = some (map (marker.toNat - 0x80), rest) := by
  simp [read?, hlt, Nat.not_lt.2 hle]

theorem read?_shortArray (marker : UInt8) (hle : 0x90 ≤ marker.toNat) (hlt : marker.toNat < 0xa0)
    (rest : List UInt8) : read? (marker :: rest) = some (array (marker.toNat - 0x90), rest) := by
  simp only [read?]
  rw [if_neg (by omega), if_neg (by omega), if_pos hlt]

theorem read?_shortText (marker : UInt8) (hle : 0xa0 ≤ marker.toNat) (hlt : marker.toNat < 0xc0)
    (rest : List UInt8) :
    read? (marker :: rest) =
      (splitExactly? (marker.toNat - 0xa0) rest).map fun (s, rest) => (text s, rest) := by
  simp only [read?]
  rw [if_neg (by omega), if_neg (by omega), if_neg (by omega), if_pos hlt]

theorem read?_shortNegative (marker : UInt8) (hle : 0xe0 ≤ marker.toNat) (rest : List UInt8) :
    read? (marker :: rest) = some (int ((marker.toNat : Int) - 256), rest) := by
  simp only [read?]
  rw [if_neg (by omega), if_neg (by omega), if_neg (by omega), if_neg (by omega), if_pos hle]

theorem read?_writeInt {n : Int} (hlo : -2 ^ 63 ≤ n) (hhi : n < 2 ^ 64) (rest : List UInt8) :
    read? (writeInt n ++ rest) = some (ofInt n, rest) := by
  rw [writeInt, ofInt]
  by_cases hsign : 0 ≤ n
  · have hnat : ∀ width, n.toNat < 256 ^ width →
        readNat? width (bigEndian width n.toNat ++ rest) = some (n.toNat, rest) :=
      fun _ h => readNat?_bigEndian h rest
    simp only [if_pos hsign]
    split
    · have hcode : (UInt8.ofNat n.toNat).toNat = n.toNat := by
        rw [UInt8.toNat_ofNat']
        omega
      have h := read?_short (UInt8.ofNat n.toNat) (by omega) rest
      rw [hcode] at h
      rwa [bigEndian_one]
    · split
      · have h := hnat 1 (by omega)
        simp [read?, h]
      · split
        · have h := hnat 2 (by omega)
          simp [read?, h]
        · split
          · have h := hnat 4 (by omega)
            simp [read?, h]
          · have h := hnat 8 (by omega)
            simp [read?, h]
  · have hint : ∀ width, -256 ^ width ≤ 2 * n →
        (readNat? width (bigEndian width (toTwosComplement width n) ++ rest)).map
            (fun read => (int (ofTwosComplement width read.1), read.2)) = some (int n, rest) := by
      intro width h
      rw [readNat?_bigEndian (toTwosComplement_lt width n)]
      simp only [Option.map_some, ofTwosComplement_toTwosComplement (by omega) h]
    simp only [if_neg hsign]
    split
    · have hcode : (UInt8.ofNat (toTwosComplement 1 n)).toNat = (n + 256).toNat := by
        rw [UInt8.toNat_ofNat', toTwosComplement_eq]
        omega
      have h := read?_shortNegative (UInt8.ofNat (toTwosComplement 1 n)) (by omega) rest
      rw [hcode, show (((n + 256).toNat : Nat) : Int) - 256 = n by omega] at h
      rwa [bigEndian_one]
    · split
      · exact hint 1 (by omega)
      · split
        · exact hint 2 (by omega)
        · split
          · exact hint 4 (by omega)
          · exact hint 8 (by omega)

theorem read?_mapMarkers {size : Nat} (h : size < 2 ^ 32) (rest : List UInt8) :
    read? (mapMarkers.write size ++ rest) = some (map size, rest) := by
  have hnat : ∀ width, size < 256 ^ width →
      readNat? width (bigEndian width size ++ rest) = some (size, rest) :=
    fun _ h => readNat?_bigEndian h rest
  rw [mapMarkers_write]
  split
  · have hcode : (UInt8.ofNat (0x80 + size)).toNat = 0x80 + size := by
      rw [UInt8.toNat_ofNat']
      omega
    have h := read?_shortMap (UInt8.ofNat (0x80 + size)) (by omega) (by omega) rest
    rwa [hcode, Nat.add_sub_cancel_left] at h
  · split
    · have h := hnat 2 (by omega)
      simp [read?, h]
    · have h := hnat 4 (by omega)
      simp [read?, h]

theorem read?_arrayMarkers {size : Nat} (h : size < 2 ^ 32) (rest : List UInt8) :
    read? (arrayMarkers.write size ++ rest) = some (array size, rest) := by
  have hnat : ∀ width, size < 256 ^ width →
      readNat? width (bigEndian width size ++ rest) = some (size, rest) :=
    fun _ h => readNat?_bigEndian h rest
  rw [arrayMarkers_write]
  split
  · have hcode : (UInt8.ofNat (0x90 + size)).toNat = 0x90 + size := by
      rw [UInt8.toNat_ofNat']
      omega
    have h := read?_shortArray (UInt8.ofNat (0x90 + size)) (by omega) (by omega) rest
    rwa [hcode, Nat.add_sub_cancel_left] at h
  · split
    · have h := hnat 2 (by omega)
      simp [read?, h]
    · have h := hnat 4 (by omega)
      simp [read?, h]

theorem read?_textMarkers {bytes : List UInt8} (h : bytes.length < 2 ^ 32) (rest : List UInt8) :
    read? (textMarkers.write bytes.length ++ (bytes ++ rest)) = some (text bytes, rest) := by
  have hsized : ∀ width, bytes.length < 256 ^ width →
      readSized? width (bigEndian width bytes.length ++ (bytes ++ rest)) = some (bytes, rest) :=
    fun _ h => readSized?_bigEndian h rest
  rw [textMarkers_write]
  split
  · have hcode : (UInt8.ofNat (0xa0 + bytes.length)).toNat = 0xa0 + bytes.length := by
      rw [UInt8.toNat_ofNat']
      omega
    have h := read?_shortText (UInt8.ofNat (0xa0 + bytes.length)) (by omega) (by omega)
      (bytes ++ rest)
    rw [hcode, Nat.add_sub_cancel_left, splitExactly?_append] at h
    exact h
  · split
    · have h := hsized 1 (by omega)
      simp [read?, h]
    · split
      · have h := hsized 2 (by omega)
        simp [read?, h]
      · have h := hsized 4 (by omega)
        simp [read?, h]

theorem read?_writeBlob {bytes : List UInt8} (h : bytes.length < 2 ^ 32) (rest : List UInt8) :
    read? (writeBlob bytes ++ rest) = some (blob bytes, rest) := by
  have hsized : ∀ width, bytes.length < 256 ^ width →
      readSized? width (bigEndian width bytes.length ++ (bytes ++ rest)) = some (bytes, rest) :=
    fun _ h => readSized?_bigEndian h rest
  rw [writeBlob, blobMarkers_write, List.append_assoc]
  split
  · have h := hsized 1 (by omega)
    simp [read?, h]
  · split
    · have h := hsized 2 (by omega)
      simp [read?, h]
    · have h := hsized 4 (by omega)
      simp [read?, h]

theorem read?_writeText {s : String} (h : (textBytes s).length < 2 ^ 32) (rest : List UInt8) :
    read? (writeText s ++ rest) = some (text (textBytes s), rest) := by
  rw [writeText, List.append_assoc]
  exact read?_textMarkers h rest

theorem read?_writeBool (b : Bool) (rest : List UInt8) :
    read? (writeBool b ++ rest) = some (bool b, rest) := by
  cases b <;> rfl

end Token

end MessageChannel.MessagePack
