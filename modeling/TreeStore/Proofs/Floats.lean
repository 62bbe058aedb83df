import TreeStore.Proofs.Lookahead
/-!
Floats in JSON. Before a closing brace the text of a float is either read whole, as the same double
wherever it stands, or refused (`decides_float`). Which double that is need not be the one that was
written; `reread?` says.
-/
namespace TreeStore.Json

open Text

variable {α β : Type}

def Refuses (reader : Reader α) (front : Bytes) : Prop :=
  ∀ tail line column a c, reader ⟨front ++ tail, line, column⟩ ≠ .ok (a, c)

namespace Refuses

theorem of_fails {reader : Reader α} (fails : Fails reader) (front : Bytes) :
    Refuses reader front :=
  fun _ _ _ a c => fails _ a c

theorem more {reader : Reader α} {front : Bytes} (refuses : Refuses reader front)
    (more : Bytes) : Refuses reader (front ++ more) := by
  intro tail line column a c
  rw [List.append_assoc]
  exact refuses (more ++ tail) line column a c

theorem bind {first : Reader α} {front : Bytes} (refuses : Refuses first front)
    (next : α → Reader β) : Refuses (first >>= next) front := by
  intro tail line column b c ok
  obtain ⟨a, middle, taken, -⟩ := bind_eq_ok.1 ok
  exact refuses tail line column a middle taken

theorem map {reader : Reader α} {front : Bytes} (refuses : Refuses reader front) (f : α → β) :
    Refuses (f <$> reader) front := by
  rw [map_eq_pure_bind]
  exact refuses.bind _

theorem after {first : Reader α} {next : α → Reader β} {more : Bytes} {a : α} (front : Bytes)
    (reads : ∀ tail, Reads first front (more ++ tail) a) (refuses : Refuses (next a) more) :
    Refuses (first >>= next) (front ++ more) := by
  intro tail line column b c ok
  obtain ⟨a', middle, taken, ok⟩ := bind_eq_ok.1 ok
  obtain ⟨line', column', eq⟩ := reads tail line column
  rw [List.append_assoc, eq] at taken
  cases taken
  exact refuses tail line' column' b c ok

end Refuses

/-- Before a closing brace the reader takes exactly these bytes, or it fails. -/
def Decides (reader : Reader α) (front : Bytes) : Prop :=
  (∃ a, ∀ tail, Reads reader front (0x7D :: tail) a) ∨ Refuses reader (front ++ [0x7D])

namespace Decides

theorem of_fails {reader : Reader α} (fails : Fails reader) (front : Bytes) :
    Decides reader front :=
  .inr (.of_fails fails _)

theorem pure (a : α) : Decides (Pure.pure a : Reader α) [] :=
  .inl ⟨a, fun tail => Reads.pure a (0x7D :: tail)⟩

theorem after {first : Reader α} {next : α → Reader β} {more : Bytes} {a : α} (front : Bytes)
    (reads : ∀ tail, Reads first front (more ++ 0x7D :: tail) a) (rest : Decides (next a) more) :
    Decides (first >>= next) (front ++ more) := by
  rcases rest with ⟨b, taken⟩ | refused
  · exact .inl ⟨b, fun tail => (reads tail).bind (taken tail)⟩
  · refine .inr ?_
    rw [List.append_assoc]
    refine .after front (fun tail => ?_) refused
    rw [List.append_assoc]
    exact reads tail

theorem bind {first : Reader α} {next : α → Reader β} {front : Bytes}
    (decides : Decides first front) (rest : ∀ a, Decides (next a) []) :
    Decides (first >>= next) front := by
  rcases decides with ⟨a, taken⟩ | refused
  · rw [← List.append_nil front]
    exact after front taken (rest a)
  · exact .inr (refused.bind next)

theorem congr {reader reader' : Reader α}
    (same : ∀ c result, reader c = .ok result ↔ reader' c = .ok result) {front : Bytes}
    (decides : Decides reader' front) : Decides reader front := by
  rcases decides with ⟨a, taken⟩ | refused
  · exact .inl ⟨a, fun tail => (taken tail).congr same⟩
  · exact .inr fun tail line column a c ok => refused tail line column a c ((same _ _).1 ok)

end Decides

theorem reads_peek (b : UInt8) (rest : Bytes) : Reads peek [] (b :: rest) (some b) :=
  fun line column => ⟨line, column, rfl⟩

inductive Exponent : Bytes → Prop
  | none : Exponent []
  | some {sign : UInt8} {digits : Bytes} (signed : sign = 0x2B ∨ sign = 0x2D)
      (nonempty : digits ≠ []) (all : ∀ b ∈ digits, isDigit b = true) :
      Exponent (0x65 :: sign :: digits)

inductive Behind : Bytes → Prop
  | fraction {digits exponent : Bytes} (nonempty : digits ≠ [])
      (all : ∀ b ∈ digits, isDigit b = true) (last : Exponent exponent) :
      Behind (0x2E :: (digits ++ exponent))
  | exponent {exponent : Bytes} (last : Exponent exponent) : Behind exponent

theorem Exponent.noDigit {bytes : Bytes} (exponent : Exponent bytes) (tail : Bytes) :
    NoDigit (bytes ++ 0x7D :: tail) := by
  cases exponent with
  | none => exact noDigit_brace tail
  | some =>
    rintro b more eq
    cases eq
    rfl

theorem Behind.noDigit {bytes : Bytes} (behind : Behind bytes) (tail : Bytes) :
    NoDigit (bytes ++ 0x7D :: tail) := by
  cases behind with
  | fraction =>
    rintro b more eq
    cases eq
    rfl
  | exponent last => exact last.noDigit tail

variable {negative : Bool} {significand : Nat} {exponent : Int}

theorem decides_scaled : Decides (scaled negative significand exponent) [] := by
  unfold scaled
  split
  · exact .pure _
  · exact .of_fails (Fails.here _) _

theorem decides_exponentDigits {minus : Bool} {digits : Bytes}
    (all : ∀ b ∈ digits, isDigit b = true) :
    Decides (exponentDigits negative minus significand exponent) digits := by
  refine Decides.congr (fun _ _ => exponentDigits_eq_ok) ?_
  rw [← List.append_nil digits]
  refine .after _ (fun tail => reads_digitRun all (noDigit_brace tail)) ?_
  split
  · exact decides_scaled
  split
  · exact .of_fails (Fails.here _) _
  · exact .pure _

theorem decides_exponentPart {sign : UInt8} {digits : Bytes} (signed : sign = 0x2B ∨ sign = 0x2D)
    (nonempty : digits ≠ []) (all : ∀ b ∈ digits, isDigit b = true) :
    Decides (exponentPart negative significand exponent) (sign :: digits) := by
  have sign_read : ∃ minus, ∀ rest, Reads exponentSign [sign] rest minus := by
    rcases signed with rfl | rfl
    · exact ⟨false, fun rest line column => ⟨_, _, rfl⟩⟩
    · exact ⟨true, fun rest line column => ⟨_, _, rfl⟩⟩
  obtain ⟨minus, sign_read⟩ := sign_read
  obtain ⟨b, more, rfl⟩ := List.exists_cons_of_ne_nil nonempty
  refine Decides.after _ (fun tail => sign_read _) ?_
  refine Decides.after [] (fun tail => reads_peek b _) ?_
  dsimp only
  rw [if_pos (all b (by simp))]
  exact decides_exponentDigits all

theorem decides_exponentOrEnd {bytes : Bytes} (last : Exponent bytes) :
    Decides (exponentOrEnd negative significand exponent) bytes := by
  cases last with
  | none => exact Decides.after [] (fun tail => reads_peek 0x7D tail) decides_scaled
  | @some sign digits signed nonempty all =>
    refine Decides.after [] (fun tail => reads_peek 0x65 _) ?_
    rw [if_pos (by decide)]
    refine Decides.after [0x65] (fun tail => reads_advance 0x65 _) ?_
    exact decides_exponentPart signed nonempty all

theorem decides_fractionPart {digits bytes : Bytes} (nonempty : digits ≠ [])
    (all : ∀ b ∈ digits, isDigit b = true) (last : Exponent bytes) :
    Decides (fractionPart negative significand exponent) (digits ++ bytes) := by
  refine Decides.after _ (fun tail => reads_digitRun all (last.noDigit tail)) ?_
  rw [if_neg (by simpa using nonempty)]
  exact decides_exponentOrEnd last

theorem decides_afterWhole {bytes : Bytes} (behind : Behind bytes) {dropped : Nat} :
    Decides (afterWhole negative significand dropped) bytes := by
  cases behind with
  | fraction nonempty all last =>
    refine Decides.after [] (fun tail => reads_peek 0x2E _) ?_
    rw [if_pos (by decide)]
    refine Decides.after [0x2E] (fun tail => reads_advance 0x2E _) ?_
    exact decides_fractionPart nonempty all last
  | exponent last =>
    cases last with
    | none =>
      refine Decides.after [] (fun tail => reads_peek 0x7D tail) ?_
      rw [if_neg (by decide), if_neg (by decide)]
      split
      · exact decides_scaled
      split
      · exact .pure _
      split
      · exact .pure _
      · exact .pure _
    | some signed nonempty all =>
      refine Decides.after [] (fun tail => reads_peek 0x65 _) ?_
      rw [if_neg (by decide), if_pos (by decide)]
      refine Decides.after [0x65] (fun tail => reads_advance 0x65 _) ?_
      exact decides_exponentPart signed nonempty all

inductive Unsigned : Bytes → Prop
  | mk {whole behind : Bytes} (nonempty : whole ≠ []) (all : ∀ b ∈ whole, isDigit b = true)
      (rest : Behind behind) : Unsigned (whole ++ behind)

theorem reads_peek_before (bytes : Bytes) :
    ∃ b, ∀ tail, Reads peek [] (bytes ++ 0x7D :: tail) (some b) ∧
      (NoDigit (bytes ++ 0x7D :: tail) → isDigit b = false) := by
  cases bytes with
  | nil => exact ⟨0x7D, fun tail => ⟨reads_peek _ _, fun _ => rfl⟩⟩
  | cons b more => exact ⟨b, fun tail => ⟨reads_peek _ _, fun stops => stops b _ rfl⟩⟩

theorem decides_unsignedNumber {bytes : Bytes} (number : Unsigned bytes) :
    Decides (unsignedNumber negative) bytes := by
  obtain @⟨whole, behind, nonempty, all, rest⟩ := number
  obtain ⟨b, more, rfl⟩ := List.exists_cons_of_ne_nil nonempty
  refine Decides.after [] (fun tail => reads_peek b _) ?_
  split
  case h_1 eq => cases eq
  case h_2 eq =>
    -- Behind a zero there may be no digit.
    cases eq
    refine Decides.after [0x30] (fun tail => reads_advance 0x30 _) ?_
    cases more with
    | nil =>
      obtain ⟨b, seen⟩ := reads_peek_before behind
      refine Decides.after [] (fun tail => (seen tail).1) ?_
      have stops : isDigit b = false := (seen []).2 (rest.noDigit [])
      rw [Option.any_some, if_neg (by simp [stops])]
      exact decides_afterWhole rest
    | cons d more =>
      refine Decides.after [] (fun tail => reads_peek d _) ?_
      rw [Option.any_some, if_pos (all d (by simp))]
      exact .of_fails (Fails.ahead _) _
  case h_3 eq =>
    cases eq
    rw [if_pos (all b (by simp))]
    refine Decides.after _ (fun tail => reads_digitRun all (rest.noDigit tail)) ?_
    exact decides_afterWhole rest

inductive Signed : Bytes → Prop
  | plus {bytes : Bytes} (number : Unsigned bytes) : Signed bytes
  | minus {bytes : Bytes} (number : Unsigned bytes) : Signed (0x2D :: bytes)

theorem decides_expectNumber (expected : String) {bytes : Bytes} (number : Signed bytes) :
    Decides (expectNumber expected) bytes := by
  cases number with
  | minus number =>
    refine Decides.after [] (fun tail => reads_firstByte (by decide) _) ?_
    rw [if_pos (by decide)]
    refine Decides.after [0x2D] (fun tail => reads_advance 0x2D _) ?_
    exact decides_unsignedNumber number
  | plus number =>
    have decides : Decides (unsignedNumber false) bytes := decides_unsignedNumber number
    obtain @⟨whole, behind, nonempty, all, -⟩ := number
    obtain ⟨b, more, rfl⟩ := List.exists_cons_of_ne_nil nonempty
    have digit : isDigit b = true := all b (by simp)
    obtain ⟨solid, no_minus⟩ := isSpace_of_isDigit digit
    refine Decides.after [] (fun tail => reads_firstByte solid _) ?_
    rw [if_neg (by simpa using no_minus), if_pos digit]
    exact decides

theorem decides_expectFloat {bytes : Bytes} (number : Signed bytes) :
    Decides expectFloat bytes := by
  refine (decides_expectNumber "f64" number).bind fun number => ?_
  cases number with
  | natural n => exact .pure _
  | negative n => exact .pure _
  | float bits => exact .pure _

theorem unsigned_fraction {whole fraction : List Char} (all : DigitChars whole)
    (some : whole ≠ []) (all' : DigitChars fraction) (some' : fraction ≠ []) :
    Unsigned (utf8 (whole ++ '.' :: fraction)) := by
  have bytes : utf8 (whole ++ '.' :: fraction) = utf8 whole ++ 0x2E :: (utf8 fraction ++ []) := by
    rw [utf8_append, utf8_cons, List.append_nil]
    rfl
  rw [bytes]
  exact .mk (all.ne_nil some) all.isDigit (.fraction (all'.ne_nil some') all'.isDigit .none)

theorem unsigned_positional {digits : List Char} (all : DigitChars digits) (some : digits ≠ [])
    (lead : Int) : Unsigned (utf8 (Binary64.positional digits lead)) := by
  unfold Binary64.positional
  split
  · have zero : DigitChars ['0'] := .zeros 1
    exact unsigned_fraction zero (by simp) ((DigitChars.zeros _).append all) (by simp [some])
  dsimp only
  split
  · exact unsigned_fraction (all.append (.zeros _)) (by simp [some]) (.zeros 1) (by simp)
  case isFalse longer =>
    refine unsigned_fraction (all.sub (List.take_subset _ _)) (by simp [some])
      (all.sub (List.drop_subset _ _)) ?_
    simpa using longer

theorem unsigned_scientific {digits : List Char} (all : DigitChars digits) (some : digits ≠ [])
    (lead : Int) : Unsigned (utf8 (Binary64.scientific digits lead)) := by
  have exponent : Exponent (utf8 ('e' :: (if lead < 0 then '-' else '+') ::
      decimal lead.natAbs)) := by
    have power := DigitChars.decimal lead.natAbs
    have nonempty := power.ne_nil (numeral_ne_nil 10 lead.natAbs)
    split
    · exact .some (.inr rfl) nonempty power.isDigit
    · exact .some (.inl rfl) nonempty power.isDigit
  have whole : DigitChars (digits.take 1) := all.sub (List.take_subset 1 digits)
  have nonempty : utf8 (digits.take 1) ≠ [] := whole.ne_nil (by simp [some])
  unfold Binary64.scientific
  simp only [List.append_assoc, List.cons_append, List.nil_append]
  rw [utf8_append]
  refine .mk nonempty whole.isDigit ?_
  split
  · exact .exponent exponent
  case isFalse longer =>
    have fraction : DigitChars (digits.drop 1) := all.sub (List.drop_subset 1 digits)
    have some : digits.drop 1 ≠ [] := fun none => longer (List.drop_eq_nil_iff.1 none)
    have behind := Behind.fraction (fraction.ne_nil some) fraction.isDigit exponent
    rwa [← utf8_append] at behind

theorem unsigned_magnitudeText (magnitude : Nat) :
    Unsigned (utf8 (Binary64.magnitudeText magnitude)) := by
  unfold Binary64.magnitudeText
  split
  · exact unsigned_fraction (.zeros 1) (by simp) (.zeros 1) (by simp)
  · have all := DigitChars.decimal (Binary64.shortest magnitude).digits
    have nonempty := numeral_ne_nil 10 (Binary64.shortest magnitude).digits
    unfold Binary64.Decimal.text
    dsimp only
    split
    · exact unsigned_positional all nonempty _
    · exact unsigned_scientific all nonempty _

theorem signed_text (bits : UInt64) : Signed (utf8 (Binary64.text bits)) := by
  unfold Binary64.text
  split
  · exact .minus (unsigned_magnitudeText _)
  · exact .plus (unsigned_magnitudeText _)

/-- The text of a double is a number, which is taken whole if it is not refused. A double that is
not finite has none. -/
theorem decides_float (bits : UInt64) : Decides expectFloat (utf8 (writeFloat bits)) := by
  unfold writeFloat
  split
  · exact decides_expectFloat (signed_text bits)
  · refine .inr fun tail line column a c ok => ?_
    obtain ⟨number, middle, taken, -⟩ := bind_eq_ok.1 ok
    cases taken

/-- The double that is read where one has been written, if any is. -/
def reread? (bits : UInt64) : Option UInt64 :=
  (expectFloat (.start (utf8 (writeFloat bits) ++ [0x7D]))).toOption.map Prod.fst

theorem reads_float {bits bits' : UInt64} (back : reread? bits = some bits') (tail : Bytes) :
    Reads expectFloat (utf8 (writeFloat bits)) (0x7D :: tail) bits' := by
  rcases decides_float bits with ⟨other, taken⟩ | refused
  · obtain ⟨line, column, eq⟩ := taken [] 1 0
    rw [reread?, Cursor.start, eq] at back
    obtain rfl : other = bits' := Option.some.inj back
    exact taken tail
  · obtain ⟨⟨bits', c⟩, read, -⟩ := Option.map_eq_some_iff.1 back
    have ok : expectFloat ⟨utf8 (writeFloat bits) ++ [0x7D] ++ [], 1, 0⟩ = .ok (bits', c) := by
      rw [List.append_nil]
      exact toOption_eq_some.1 read
    exact absurd ok (refused [] 1 0 bits' c)

theorem refuses_float {bits : UInt64} (lost : reread? bits = none) :
    Refuses expectFloat (utf8 (writeFloat bits) ++ [0x7D]) := by
  rcases decides_float bits with ⟨other, taken⟩ | refused
  · obtain ⟨line, column, eq⟩ := taken [] 1 0
    rw [reread?, Cursor.start, eq] at lost
    cases lost
  · exact refused

theorem reread?_of_not_finite {bits : UInt64} (wild : Binary64.isFinite bits = false) :
    reread? bits = none := by
  rw [reread?, writeFloat, wild]
  rfl

example : reread? 0x3FB999999999999A = some 0x3FB999999999999A := by decide +kernel

end TreeStore.Json
