/-!
Text as bytes. `encode` writes the UTF-8 form; `decode` reads it and says of a defective form how
many bytes before the defect are sound and how long the defect is. Main statement:
`decode_encode`.
-/
namespace TreeStore

abbrev Bytes := List UInt8

namespace Text.Utf8

def encode (text : String) : Bytes := text.toList.flatMap String.utf8EncodeChar

/-- The first byte that can belong to no character, with the number of bytes that were read as
one; no number where the text ends inside a character. -/
structure Defect where
  start : Nat
  length : Option Nat
deriving DecidableEq, Repr

def isContinuation (b : UInt8) : Bool := 0x80 ≤ b && b < 0xC0

def low6 (b : UInt8) : Nat := b.toNat % 64

/-- Whether `b` may stand second after the first byte `a` of a longer form. The exclusions keep
out overlong forms, surrogates and code points beyond the last. -/
def secondFits (a b : UInt8) : Bool :=
  isContinuation b && !(a == 0xE0 && b < 0xA0) && !(a == 0xED && 0xA0 ≤ b) &&
    !(a == 0xF0 && b < 0x90) && !(a == 0xF4 && 0x90 ≤ b)

def decodeFrom (start : Nat) : Bytes → Except Defect (List Char)
  | [] => .ok []
  | a :: rest =>
    if a < 0x80 then return Char.ofNat a.toNat :: (← decodeFrom (start + 1) rest)
    else if a < 0xC2 || 0xF5 ≤ a then .error ⟨start, some 1⟩
    else match rest with
      | [] => .error ⟨start, none⟩
      | b :: rest =>
        if !secondFits a b then .error ⟨start, some 1⟩
        else if a < 0xE0 then
          return Char.ofNat (a.toNat % 32 * 64 + low6 b) :: (← decodeFrom (start + 2) rest)
        else match rest with
          | [] => .error ⟨start, none⟩
          | c :: rest =>
            if !isContinuation c then .error ⟨start, some 2⟩
            else if a < 0xF0 then
              return Char.ofNat (a.toNat % 16 * 4096 + low6 b * 64 + low6 c) ::
                (← decodeFrom (start + 3) rest)
            else match rest with
              | [] => .error ⟨start, none⟩
              | d :: rest =>
                if !isContinuation d then .error ⟨start, some 3⟩
                else
                  return Char.ofNat
                      (a.toNat % 8 * 262144 + low6 b * 4096 + low6 c * 64 + low6 d) ::
                    (← decodeFrom (start + 4) rest)

def decode (bytes : Bytes) : Except Defect String := String.ofList <$> decodeFrom 0 bytes

theorem isContinuation_iff {b : UInt8} :
    isContinuation b = true ↔ 128 ≤ b.toNat ∧ b.toNat < 192 := by
  simp [isContinuation, UInt8.le_iff_toNat_le, UInt8.lt_iff_toNat_lt]

theorem secondFits_iff {a b : UInt8} :
    secondFits a b = true ↔
      (128 ≤ b.toNat ∧ b.toNat < 192) ∧ (a.toNat = 0xE0 → 0xA0 ≤ b.toNat) ∧
        (a.toNat = 0xED → b.toNat < 0xA0) ∧ (a.toNat = 0xF0 → 0x90 ≤ b.toNat) ∧
        (a.toNat = 0xF4 → b.toNat < 0x90) := by
  simp only [secondFits, Bool.and_eq_true, isContinuation_iff, Bool.not_eq_true',
    Bool.and_eq_false_iff, beq_eq_false_iff_ne, decide_eq_false_iff_not, ne_eq,
    UInt8.le_iff_toNat_le, UInt8.lt_iff_toNat_lt, ← UInt8.toNat_inj]
  simp
  omega

theorem decodeFrom_one {a : UInt8} (h : a.toNat < 0x80) (start : Nat) (rest : Bytes) :
    decodeFrom start (a :: rest) =
      (Char.ofNat a.toNat :: ·) <$> decodeFrom (start + 1) rest := by
  have one : a < 0x80 := UInt8.lt_iff_toNat_lt.2 h
  rw [decodeFrom.eq_def]
  dsimp only
  rw [if_pos one]
  cases decodeFrom (start + 1) rest <;> rfl

theorem first_of_several {a : UInt8} (low : 0xC2 ≤ a.toNat) (high : a.toNat < 0xF5) :
    ¬ a < 0x80 ∧ (decide (a < 0xC2) || decide (0xF5 ≤ a)) = false := by
  simp [UInt8.le_iff_toNat_le, UInt8.lt_iff_toNat_lt]
  omega

theorem decodeFrom_two {a b : UInt8} (low : 0xC2 ≤ a.toNat) (high : a.toNat < 0xE0)
    (second : secondFits a b = true) (start : Nat) (rest : Bytes) :
    decodeFrom start (a :: b :: rest) =
      (Char.ofNat (a.toNat % 32 * 64 + low6 b) :: ·) <$> decodeFrom (start + 2) rest := by
  obtain ⟨notOne, fits⟩ := first_of_several low (Nat.lt_trans high (by decide))
  have two : a < 0xE0 := UInt8.lt_iff_toNat_lt.2 high
  rw [decodeFrom.eq_def]
  dsimp only
  rw [if_neg notOne, fits, if_neg (by decide), second, if_neg (by decide), if_pos two]
  cases decodeFrom (start + 2) rest <;> rfl

theorem decodeFrom_three {a b c : UInt8} (low : 0xE0 ≤ a.toNat) (high : a.toNat < 0xF0)
    (second : secondFits a b = true) (third : isContinuation c = true) (start : Nat)
    (rest : Bytes) :
    decodeFrom start (a :: b :: c :: rest) =
      (Char.ofNat (a.toNat % 16 * 4096 + low6 b * 64 + low6 c) :: ·) <$>
        decodeFrom (start + 3) rest := by
  obtain ⟨notOne, fits⟩ :=
    first_of_several (Nat.le_trans (by decide) low) (Nat.lt_trans high (by decide))
  have notTwo : ¬ a < 0xE0 := fun h => absurd (UInt8.lt_iff_toNat_lt.1 h) (Nat.not_lt.2 low)
  have three : a < 0xF0 := UInt8.lt_iff_toNat_lt.2 high
  rw [decodeFrom.eq_def]
  dsimp only
  rw [if_neg notOne, fits, if_neg (by decide), second, if_neg (by decide), if_neg notTwo, third,
    if_neg (by decide), if_pos three]
  cases decodeFrom (start + 3) rest <;> rfl

theorem decodeFrom_four {a b c d : UInt8} (low : 0xF0 ≤ a.toNat) (high : a.toNat < 0xF5)
    (second : secondFits a b = true) (third : isContinuation c = true)
    (fourth : isContinuation d = true) (start : Nat) (rest : Bytes) :
    decodeFrom start (a :: b :: c :: d :: rest) =
      (Char.ofNat (a.toNat % 8 * 262144 + low6 b * 4096 + low6 c * 64 + low6 d) :: ·) <$>
        decodeFrom (start + 4) rest := by
  obtain ⟨notOne, fits⟩ := first_of_several (Nat.le_trans (by decide) low) high
  have notThree : ¬ a < 0xF0 := fun h => absurd (UInt8.lt_iff_toNat_lt.1 h) (Nat.not_lt.2 low)
  have notTwo : ¬ a < 0xE0 := fun h =>
    absurd (UInt8.lt_iff_toNat_lt.1 h) (Nat.not_lt.2 (Nat.le_trans (by decide) low))
  rw [decodeFrom.eq_def]
  dsimp only
  rw [if_neg notOne, fits, if_neg (by decide), second, if_neg (by decide), if_neg notTwo, third,
    if_neg (by decide), if_neg notThree, fourth, if_neg (by decide)]
  cases decodeFrom (start + 4) rest <;> rfl

theorem decodeFrom_encodeChar_append (start : Nat) (c : Char) (rest : Bytes) :
    decodeFrom start (String.utf8EncodeChar c ++ rest) =
      (c :: ·) <$> decodeFrom (start + (String.utf8EncodeChar c).length) rest := by
  have valid : c.toNat < 0xD800 ∨ 0xDFFF < c.toNat ∧ c.toNat < 0x110000 := c.valid
  have back : c = Char.ofNat c.toNat := by simp
  have byte : ∀ n : Nat, n < 256 → (UInt8.ofNat n).toNat = n := fun n h =>
    UInt8.toNat_ofNat_of_lt' h
  rw [String.utf8EncodeChar, show c.val.toNat = c.toNat from rfl]
  generalize c.toNat = n at *
  subst back
  split
  · rw [List.singleton_append, decodeFrom_one (by rw [byte _ (by omega)]; omega),
      byte _ (by omega)]
    rfl
  split
  · have first := byte (n / 64 % 32 + 192) (by omega)
    have second := byte (n % 64 + 128) (by omega)
    rw [List.cons_append, List.singleton_append, decodeFrom_two (by omega) (by omega)
      (secondFits_iff.2 (by omega)), low6, first, second]
    have whole : (n / 64 % 32 + 192) % 32 * 64 + (n % 64 + 128) % 64 = n := by
      omega
    rw [whole]
    rfl
  split
  · have first := byte (n / 4096 % 16 + 224) (by omega)
    have second := byte (n / 64 % 64 + 128) (by omega)
    have third := byte (n % 64 + 128) (by omega)
    rw [List.cons_append, List.cons_append, List.singleton_append, decodeFrom_three (by omega)
      (by omega) (secondFits_iff.2 (by omega)) (isContinuation_iff.2 (by omega)), low6, low6,
      first, second, third]
    have whole : (n / 4096 % 16 + 224) % 16 * 4096 + (n / 64 % 64 + 128) % 64 * 64
        + (n % 64 + 128) % 64 = n := by
      omega
    rw [whole]
    rfl
  · have first := byte (n / 262144 % 8 + 240) (by omega)
    have second := byte (n / 4096 % 64 + 128) (by omega)
    have third := byte (n / 64 % 64 + 128) (by omega)
    have fourth := byte (n % 64 + 128) (by omega)
    rw [List.cons_append, List.cons_append, List.cons_append, List.singleton_append,
      decodeFrom_four (by omega) (by omega) (secondFits_iff.2 (by omega))
      (isContinuation_iff.2 (by omega)) (isContinuation_iff.2 (by omega)), low6, low6, low6,
      first, second, third, fourth]
    have whole : (n / 262144 % 8 + 240) % 8 * 262144 + (n / 4096 % 64 + 128) % 64 * 4096 +
        (n / 64 % 64 + 128) % 64 * 64 + (n % 64 + 128) % 64 = n := by
      omega
    rw [whole]
    rfl

theorem decodeFrom_encode (start : Nat) (s : List Char) :
    decodeFrom start (s.flatMap String.utf8EncodeChar) = .ok s := by
  induction s generalizing start with
  | nil => rfl
  | cons c rest ih =>
    rw [List.flatMap_cons, decodeFrom_encodeChar_append, ih]
    rfl

@[simp] theorem decode_encode (text : String) : decode (encode text) = .ok text := by
  rw [decode, encode, decodeFrom_encode]
  simp [Functor.map, Except.map]

end Text.Utf8

end TreeStore
