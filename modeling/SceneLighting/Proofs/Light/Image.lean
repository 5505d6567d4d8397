import SceneLighting.Light.Packed
import Mathlib.Algebra.Ring.Nat
import Mathlib.Tactic.Lemma

/-!
# Reading packed lights

The image of a list of records can be read again, word by word. A field lies at the same place of
every record, the records lie one after the other, and the words are the numbers bit for bit. So the
image determines the records.
-/

namespace SceneLighting.PackedLight

/-! ### Words -/

/-- The word that four bytes hold, lowest first. -/
def wordOfBytes (a b c d : UInt8) : UInt32 :=
  .ofNat (a.toNat + 2 ^ 8 * b.toNat + 2 ^ 16 * c.toNat + 2 ^ 24 * d.toNat)

/-- The first words of a list of bytes, if there are so many. -/
def words? : (count : Nat) → (bytes : List UInt8) → Option (List UInt32)
  | 0, _ => some []
  | count + 1, a :: b :: c :: d :: rest => (words? count rest).map (wordOfBytes a b c d :: ·)
  | _ + 1, _ => none

/-- The words that lie at a place in memory, one after the other. -/
def wordsAt? (memory : List UInt8) (place count : Nat) : Option (List UInt32) :=
  words? count (memory.drop place)

lemma wordOfBytes_wordBytes (word : UInt32) :
    wordOfBytes word.toUInt8 (word >>> 8).toUInt8 (word >>> 16).toUInt8 (word >>> 24).toUInt8 =
      word := by
  have hlt := word.toNat_lt
  apply UInt32.toNat_inj.1
  simp only [wordOfBytes, UInt32.toNat_ofNat', UInt32.toNat_toUInt8, UInt32.toNat_shiftRight,
    UInt32.reduceToNat, Nat.reduceMod, Nat.shiftRight_eq_div_pow]
  omega

lemma words?_eq_none {count : Nat} {bytes : List UInt8} (h : bytes.length < 4 * count) :
    words? count bytes = none := by
  fun_induction words? count bytes with
  | case1 => simp at h
  | case2 count a b c d rest ih =>
    rw [ih, Option.map_none]
    simp only [List.length_cons] at h
    omega
  | case3 => rfl

/-! ### Numbers -/

/-- A number is known by its word. What is no number has one word only. -/
lemma toBits_injective : Function.Injective Float32.toBits := by
  rintro ⟨⟨word, _⟩⟩ ⟨⟨word', _⟩⟩ h
  have h : word = word' := h
  subst h
  rfl

/-- The image of a list of numbers. -/
def bytesOf (numbers : List Float32) : List UInt8 :=
  numbers.flatMap fun number => wordBytes number.toBits

lemma bytesOf_append (numbers numbers' : List Float32) :
    bytesOf (numbers ++ numbers') = bytesOf numbers ++ bytesOf numbers' :=
  List.flatMap_append

lemma length_bytesOf (numbers : List Float32) : (bytesOf numbers).length = 4 * numbers.length := by
  induction numbers with
  | nil => rfl
  | cons number numbers ih =>
    have hcons : bytesOf (number :: numbers) = wordBytes number.toBits ++ bytesOf numbers := rfl
    have hword : (wordBytes number.toBits).length = 4 := rfl
    rw [hcons, List.length_append, ih, hword, List.length_cons]
    omega

/-- Numbers are read as they were written, whatever lies behind them. -/
lemma words?_bytesOf (numbers : List Float32) (rest : List UInt8) :
    words? numbers.length (bytesOf numbers ++ rest) = some (numbers.map Float32.toBits) := by
  induction numbers with
  | nil => rfl
  | cons number numbers ih =>
    calc words? (numbers.length + 1) (bytesOf (number :: numbers) ++ rest)
        = (words? numbers.length (bytesOf numbers ++ rest)).map
            (wordOfBytes number.toBits.toUInt8 (number.toBits >>> 8).toUInt8
              (number.toBits >>> 16).toUInt8 (number.toBits >>> 24).toUInt8 :: ·) := rfl
      _ = some (number.toBits :: numbers.map Float32.toBits) := by
        rw [ih, Option.map_some, wordOfBytes_wordBytes]

/-! ### Fields -/

inductive Field where
  | position
  | ambient
  | diffuse
  | specular
  | spotDirection
  | spotExponent
  | attenuation
  | spotCosine

namespace Field

/-- The byte of a record at which the field begins. -/
def offset : Field → Nat
  | position      => 0
  | ambient       => 16
  | diffuse       => 32
  | specular      => 48
  | spotDirection => 64
  | spotExponent  => 76
  | attenuation   => 80
  | spotCosine    => 92

/-- How many numbers the field has. -/
def size : Field → Nat
  | position | ambient | diffuse | specular => 4
  | spotDirection | attenuation             => 3
  | spotExponent | spotCosine               => 1

/-- The numbers of the field in a record. -/
def numbers {α : Type} (record : PackedLight α) : Field → List α
  | position      => record.position.toList
  | ambient       => record.ambient.toList
  | diffuse       => record.diffuse.toList
  | specular      => record.specular.toList
  | spotDirection => record.spotDirection.toList
  | spotExponent  => [record.spotExponent]
  | attenuation   => record.attenuation.toList
  | spotCosine    => [record.spotCosine]

lemma length_numbers {α : Type} (record : PackedLight α) (field : Field) :
    (field.numbers record).length = field.size := by
  cases field <;> rfl

/-- A field lies at its offset among the numbers of a record. -/
lemma exists_numbers_eq {α : Type} (record : PackedLight α) (field : Field) :
    ∃ before after, record.numbers = before ++ field.numbers record ++ after ∧
      4 * before.length = field.offset := by
  refine ⟨record.numbers.take (field.offset / 4),
    record.numbers.drop (field.offset / 4 + field.size), ?_⟩
  cases field <;> simp [PackedLight.numbers, numbers, offset, size, Vec4.toList, Vec3.toList]

end Field

/-- A record is known by its fields. -/
lemma ext_fields {α : Type} {record record' : PackedLight α}
    (h : ∀ field : Field, field.numbers record = field.numbers record') : record = record' := by
  have hposition := h .position
  have hambient := h .ambient
  have hdiffuse := h .diffuse
  have hspecular := h .specular
  have hdirection := h .spotDirection
  have hexponent := h .spotExponent
  have hattenuation := h .attenuation
  have hcosine := h .spotCosine
  obtain ⟨⟨⟩, ⟨⟩, ⟨⟩, ⟨⟩, ⟨⟩, _, ⟨⟩, _⟩ := record
  obtain ⟨⟨⟩, ⟨⟩, ⟨⟩, ⟨⟩, ⟨⟩, _, ⟨⟩, _⟩ := record'
  simp_all [Field.numbers, Vec4.toList, Vec3.toList]

/-! ### Records -/

lemma image_append (records records' : List (PackedLight Float32)) :
    image (records ++ records') = image records ++ image records' :=
  List.flatMap_append

lemma length_image (records : List (PackedLight Float32)) :
    (image records).length = 96 * records.length := by
  induction records with
  | nil => rfl
  | cons record records ih =>
    have hcons : image (record :: records) = bytesOf record.numbers ++ image records := rfl
    have hrecord : record.numbers.length = 24 := rfl
    rw [hcons, List.length_append, length_bytesOf, hrecord, ih, List.length_cons]
    omega

/-- Before a field lie the records before its own, and then what is before it in its own. -/
lemma exists_image_eq {records : List (PackedLight Float32)} {i : Nat}
    {record : PackedLight Float32} (h : records[i]? = some record) (field : Field) :
    ∃ before after, image records = before ++ (bytesOf (field.numbers record) ++ after) ∧
      before.length = 96 * i + field.offset := by
  obtain ⟨hi, rfl⟩ := List.getElem?_eq_some_iff.1 h
  obtain ⟨before, after, hnumbers, hoffset⟩ := field.exists_numbers_eq records[i]
  have hsplit : records = records.take i ++ records[i] :: records.drop (i + 1) := by
    rw [List.getElem_cons_drop, List.take_append_drop]
  refine ⟨image (records.take i) ++ bytesOf before,
    bytesOf after ++ image (records.drop (i + 1)), ?_, ?_⟩
  · calc image records
        = image (records.take i) ++ image (records[i] :: records.drop (i + 1)) := by
          rw [← image_append, ← hsplit]
      _ = image (records.take i) ++
            (bytesOf records[i].numbers ++ image (records.drop (i + 1))) := rfl
      _ = image (records.take i) ++ bytesOf before ++ (bytesOf (field.numbers records[i]) ++
            (bytesOf after ++ image (records.drop (i + 1)))) := by
          simp only [hnumbers, bytesOf_append, List.append_assoc]
  · rw [List.length_append, length_image, length_bytesOf, hoffset,
      List.length_take_of_le (Nat.le_of_lt hi)]

lemma wordsAt?_image_of_some {records : List (PackedLight Float32)} {i : Nat}
    {record : PackedLight Float32} (h : records[i]? = some record) (field : Field) :
    wordsAt? (image records) (96 * i + field.offset) field.size =
      some ((field.numbers record).map Float32.toBits) := by
  obtain ⟨before, after, himage, hlength⟩ := exists_image_eq h field
  rw [wordsAt?, himage, ← hlength, List.drop_left, ← field.length_numbers record, words?_bytesOf]

lemma wordsAt?_image_of_none {records : List (PackedLight Float32)} {i : Nat}
    (h : records[i]? = none) (field : Field) :
    wordsAt? (image records) (96 * i + field.offset) field.size = none := by
  have hle : records.length ≤ i := List.getElem?_eq_none_iff.1 h
  have hsize : 0 < field.size := by cases field <;> decide
  apply words?_eq_none
  rw [List.length_drop, length_image]
  omega

/-- The words of a field are found where it lies in its record, and nothing where no record is. -/
theorem wordsAt?_image (records : List (PackedLight Float32)) (i : Nat) (field : Field) :
    wordsAt? (image records) (96 * i + field.offset) field.size =
      records[i]?.map fun record => (field.numbers record).map Float32.toBits := by
  cases h : records[i]? with
  | none => exact wordsAt?_image_of_none h field
  | some record => exact wordsAt?_image_of_some h field

theorem image_injective : Function.Injective image := by
  intro records records' h
  have hlength : records.length = records'.length := by
    have hbytes := congrArg List.length h
    rw [length_image, length_image] at hbytes
    omega
  refine List.ext_getElem hlength fun i hi hi' => ext_fields fun field => ?_
  have hwords := wordsAt?_image_of_some (List.getElem?_eq_getElem hi) field
  rw [h, wordsAt?_image_of_some (List.getElem?_eq_getElem hi'), Option.some.injEq,
    List.map_inj_right fun _ _ h => toBits_injective h] at hwords
  exact hwords.symm

/-- An image has 96 bytes for each record, the words of each field lie at its offset, records that
have the same image are the same, and records that are put together have their images put
together. -/
theorem image_reads_back (records : List (PackedLight Float32)) :
    (image records).length = 96 * records.length ∧
    (∀ i (field : Field), wordsAt? (image records) (96 * i + field.offset) field.size =
      records[i]?.map fun record => (field.numbers record).map Float32.toBits) ∧
    (∀ records', image records = image records' ↔ records = records') ∧
    ∀ records', image (records ++ records') = image records ++ image records' :=
  ⟨length_image records, wordsAt?_image records, fun _ => image_injective.eq_iff,
    image_append records⟩

end SceneLighting.PackedLight
