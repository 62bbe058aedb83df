import TreeStore.Proofs.Floats
/-!
Zero bytes in JSON. No document with one is read as a record (`Json.zero_notMem_of_document`), since
no reader ever takes one: it is no white space, no mark, no digit and no part of a string. Nor is one
ever written (`Record.zero_notMem_toJson`).
-/
namespace TreeStore

namespace Json

variable {α β : Type}

/-- The reader takes no zero: one that lies ahead still lies ahead afterwards. -/
def TakesNoZero (reader : Reader α) : Prop :=
  ∀ c a c', reader c = .ok (a, c') → 0 ∈ c.rest → 0 ∈ c'.rest

def TakesNoZeroAt (b : UInt8) (reader : Reader α) : Prop :=
  ∀ c a c', c.rest.head? = some b → reader c = .ok (a, c') → 0 ∈ c.rest → 0 ∈ c'.rest

namespace TakesNoZero

theorem of_fails {reader : Reader α} (fails : Fails reader) : TakesNoZero reader :=
  fun c a c' ok => absurd ok (fails c a c')

theorem pure (a : α) : TakesNoZero (Pure.pure a : Reader α) := by
  intro c a' c' ok ahead
  cases ok
  exact ahead

theorem bind {first : Reader α} {next : α → Reader β} (spares : TakesNoZero first)
    (rest : ∀ a, TakesNoZero (next a)) : TakesNoZero (first >>= next) := by
  intro c b c' ok ahead
  obtain ⟨a, middle, taken, ok⟩ := bind_eq_ok.1 ok
  exact rest a middle b c' ok (spares c a middle taken ahead)

theorem map {reader : Reader α} (f : α → β) (spares : TakesNoZero reader) :
    TakesNoZero (f <$> reader) := by
  rw [map_eq_pure_bind]
  exact spares.bind fun a => .pure (f a)

theorem congr {reader reader' : Reader α}
    (same : ∀ c result, reader c = .ok result ↔ reader' c = .ok result)
    (spares : TakesNoZero reader') : TakesNoZero reader :=
  fun c a c' ok => spares c a c' ((same _ _).1 ok)

theorem atByte {reader : Reader α} (spares : TakesNoZero reader) (b : UInt8) :
    TakesNoZeroAt b reader :=
  fun c a c' _ ok => spares c a c' ok

end TakesNoZero

theorem advance_takesNoZeroAt {b : UInt8} (solid : b ≠ 0) : TakesNoZeroAt b advance := by
  intro c a c' head ok ahead
  cases ok
  obtain ⟨tail, eq⟩ := List.head?_eq_some_iff.1 head
  rw [eq] at ahead
  rw [advance_rest eq]
  exact (List.mem_cons.1 ahead).resolve_left solid.symm

theorem TakesNoZeroAt.bind {b : UInt8} {first : Reader α} {next : α → Reader β}
    (spares : TakesNoZeroAt b first) (rest : ∀ a, TakesNoZero (next a)) :
    TakesNoZeroAt b (first >>= next) := by
  intro c a c' head ok ahead
  obtain ⟨a', middle, taken, ok⟩ := bind_eq_ok.1 ok
  exact rest a' middle a c' ok (spares c a' middle head taken ahead)

theorem TakesNoZeroAt.advance {b : UInt8} {next : Reader α} (solid : b ≠ 0)
    (rest : TakesNoZero next) : TakesNoZeroAt b (do advance; next) :=
  (advance_takesNoZeroAt solid).bind fun _ => rest

structure Looks (reader : Reader (Option UInt8)) : Prop where
  spares : TakesNoZero reader
  head : ∀ c found c', reader c = .ok (found, c') → c'.rest.head? = found

theorem Looks.bind {reader : Reader (Option UInt8)} {next : Option UInt8 → Reader α}
    (looks : Looks reader) (each : ∀ b, TakesNoZeroAt b (next (some b))) :
    TakesNoZero (reader >>= next) := by
  intro c a c' ok ahead
  obtain ⟨found, middle, looked, ok⟩ := bind_eq_ok.1 ok
  have ahead := looks.spares c found middle looked ahead
  have head := looks.head c found middle looked
  cases found with
  | some b => exact each b middle a c' head ok ahead
  | none =>
    rw [List.head?_eq_none_iff.1 head] at ahead
    cases ahead

theorem peek_looks : Looks peek where
  spares c found c' ok ahead := by
    cases ok
    exact ahead
  head c found c' ok := by
    cases ok
    rfl

theorem zero_mem_skipSpaceFrom {bytes : Bytes} (ahead : 0 ∈ bytes) (line column : Nat) :
    0 ∈ (Cursor.skipSpaceFrom line column bytes).rest := by
  induction bytes generalizing line column with
  | nil => cases ahead
  | cons b bytes ih =>
    rw [skipSpaceFrom_cons]
    have later : b ≠ 0 → 0 ∈ bytes := fun solid => (List.mem_cons.1 ahead).resolve_left solid.symm
    split
    case isTrue newline =>
      refine ih (later ?_) _ _
      rw [eq_of_beq newline]
      decide
    split
    case isTrue space =>
      refine ih (later ?_) _ _
      rintro rfl
      cases space
    case isFalse => exact ahead

theorem peekPastSpace_looks : Looks peekPastSpace where
  spares c found c' ok ahead := by
    cases ok
    exact zero_mem_skipSpaceFrom ahead _ _
  head c found c' ok := by
    cases ok
    rfl

theorem firstByte_bind {next : UInt8 → Reader α} (each : ∀ b, TakesNoZeroAt b (next b)) :
    TakesNoZero (firstByte >>= next) := by
  unfold firstByte
  rw [bind_assoc]
  refine peekPastSpace_looks.bind fun b => ?_
  rw [pure_bind]
  exact each b

theorem ne_zero_of_isDigit {b : UInt8} (digit : isDigit b = true) : b ≠ 0 := by
  rintro rfl
  cases digit

theorem digitRun_takesNoZero : TakesNoZero digitRun := by
  intro c run c' ok ahead
  cases ok
  rw [← List.takeWhile_append_dropWhile (p := isDigit) (l := c.rest)] at ahead
  refine (List.mem_append.1 ahead).resolve_left fun mem => ?_
  exact ne_zero_of_isDigit (List.mem_takeWhile_imp mem) rfl

theorem bareWord_takesNoZero {word : List UInt8} (solid : 0 ∉ word) :
    TakesNoZero (bareWord word) := by
  induction word with
  | nil => exact .pure ()
  | cons expected more ih =>
    obtain ⟨first, later⟩ : 0 ≠ expected ∧ 0 ∉ more := by simpa using solid
    refine peek_looks.bind fun b => ?_
    by_cases same : b = expected
    · subst same
      exact .advance (Ne.symm first) (by simpa using ih later)
    · refine (TakesNoZero.of_fails (Fails.bind fun _ => ?_)).atByte b
      rw [if_neg (by simpa using same)]
      exact Fails.here _

theorem hexValue?_zero : hexValue? 0 = none := rfl

theorem ne_zero_of_hexValue4? {a b c d : UInt8} {value : Nat}
    (hex : hexValue4? a b c d = some value) : a ≠ 0 ∧ b ≠ 0 ∧ c ≠ 0 ∧ d ≠ 0 := by
  unfold hexValue4? at hex
  refine ⟨?_, ?_, ?_, ?_⟩
  all_goals
    rintro rfl
    simp [hexValue?_zero] at hex

theorem ne_zero_of_shortEscape? {b : UInt8} {c : Char} (short : shortEscape? b = some c) :
    b ≠ 0 := by
  rintro rfl
  cases short

theorem zero_mem_of_step {mark rest : Bytes} {f : Bytes → Bytes} {s : Scanned}
    {scanned : Except (Cause × Nat) Scanned} (solid : 0 ∉ mark)
    (others : ∀ s, scanned = .ok s → 0 ∈ rest → 0 ∈ s.rest)
    (ok : (fun s => { s with bytes := f s.bytes }) <$> scanned = .ok s)
    (ahead : 0 ∈ mark ++ rest) : 0 ∈ s.rest := by
  obtain ⟨inner, eq, rfl⟩ := ok_of_map ok
  exact others inner eq ((List.mem_append.1 ahead).resolve_left solid)

theorem zero_mem_of_scan (place : Nat) (bytes : Bytes) (s : Scanned)
    (ok : scan place bytes = .ok s) (ahead : 0 ∈ bytes) : 0 ∈ s.rest := by
  fun_induction scan place bytes generalizing s
  case case2 place b rest quote =>
    cases ok
    have solid : b ≠ 0 := by
      rintro rfl
      cases quote
    exact (List.mem_cons.1 ahead).resolve_left solid.symm
  case case6 place b quote mark e long h₁ h₂ h₃ h₄ rest code value low high ih =>
    have solid : 0 ∉ [b, e, h₁, h₂, h₃, h₄] := by
      obtain ⟨d₁, d₂, d₃, d₄⟩ := ne_zero_of_hexValue4? value
      simp [eq_of_beq mark, eq_of_beq long, d₁.symm, d₂.symm, d₃.symm, d₄.symm]
    exact zero_mem_of_step solid ih ok ahead
  case case8 place b quote mark e long h₁ h₂ h₃ h₄ first value low high l₁ l₂ l₃ l₄ rest second
      value' low' char ih =>
    have solid : 0 ∉ [b, e, h₁, h₂, h₃, h₄, 0x5C, 0x75, l₁, l₂, l₃, l₄] := by
      obtain ⟨d₁, d₂, d₃, d₄⟩ := ne_zero_of_hexValue4? value
      obtain ⟨d₅, d₆, d₇, d₈⟩ := ne_zero_of_hexValue4? value'
      simp [eq_of_beq mark, eq_of_beq long, d₁.symm, d₂.symm, d₃.symm, d₄.symm, d₅.symm, d₆.symm,
        d₇.symm, d₈.symm]
    exact zero_mem_of_step solid ih ok ahead
  case case12 place b quote mark e rest long char value ih =>
    have solid : 0 ∉ [b, e] := by
      simp [eq_of_beq mark, (ne_zero_of_shortEscape? value).symm]
    exact zero_mem_of_step solid ih ok ahead
  case case15 place b rest quote mark low ih =>
    have solid : 0 ∉ [b] := by
      rintro mem
      rw [← List.mem_singleton.1 mem] at low
      exact low (by decide)
    exact zero_mem_of_step solid ih ok ahead
  all_goals cases ok

theorem text_takesNoZero : TakesNoZero text := by
  intro c value c' ok ahead
  unfold text at ok
  dsimp only at ok
  split at ok
  case h_1 => cases ok
  case h_2 s scanned =>
    split at ok
    case h_2 => cases ok
    case h_1 =>
      cases ok
      exact zero_mem_of_scan 0 c.rest s scanned ahead

theorem scaled_takesNoZero {negative : Bool} {significand : Nat} {exponent : Int} :
    TakesNoZero (scaled negative significand exponent) := by
  unfold scaled
  split
  · exact .pure _
  · exact .of_fails (Fails.here _)

theorem exponentSign_takesNoZero : TakesNoZero exponentSign := by
  refine peek_looks.bind fun b => ?_
  split
  case h_1 eq =>
    cases eq
    exact .advance (by decide) (.pure _)
  case h_2 eq =>
    cases eq
    exact .advance (by decide) (.pure _)
  case h_3 => exact (TakesNoZero.pure _).atByte b

theorem exponentDigits_takesNoZero {negative minus : Bool} {significand : Nat} {exponent : Int} :
    TakesNoZero (exponentDigits negative minus significand exponent) := by
  refine .congr (fun _ _ => exponentDigits_eq_ok) (digitRun_takesNoZero.bind fun run => ?_)
  split
  · exact scaled_takesNoZero
  split
  · exact .of_fails (Fails.here _)
  · exact .pure _

theorem exponentPart_takesNoZero {negative : Bool} {significand : Nat} {exponent : Int} :
    TakesNoZero (exponentPart negative significand exponent) := by
  refine exponentSign_takesNoZero.bind fun minus => peek_looks.bind fun b => ?_
  dsimp only
  split
  · exact exponentDigits_takesNoZero.atByte b
  · exact (TakesNoZero.of_fails (Fails.bind fun _ => Fails.here _)).atByte b

theorem ne_zero_of_isExponentMark {b : UInt8} (mark : isExponentMark (some b) = true) : b ≠ 0 := by
  rintro rfl
  cases mark

theorem exponentOrEnd_takesNoZero {negative : Bool} {significand : Nat} {exponent : Int} :
    TakesNoZero (exponentOrEnd negative significand exponent) := by
  refine peek_looks.bind fun b => ?_
  split
  case isTrue mark =>
    exact .advance (ne_zero_of_isExponentMark mark) exponentPart_takesNoZero
  case isFalse => exact scaled_takesNoZero.atByte b

theorem fractionPart_takesNoZero {negative : Bool} {significand : Nat} {exponent : Int} :
    TakesNoZero (fractionPart negative significand exponent) := by
  refine digitRun_takesNoZero.bind fun run => ?_
  split
  · exact peek_looks.bind fun b => (TakesNoZero.of_fails (Fails.ahead _)).atByte b
  · exact exponentOrEnd_takesNoZero

theorem afterWhole_takesNoZero {negative : Bool} {significand dropped : Nat} :
    TakesNoZero (afterWhole negative significand dropped) := by
  refine peek_looks.bind fun b => ?_
  split
  case isTrue point =>
    obtain rfl : b = 0x2E := by simpa using point
    exact .advance (by decide) fractionPart_takesNoZero
  split
  case isTrue mark =>
    exact .advance (ne_zero_of_isExponentMark mark) exponentPart_takesNoZero
  refine TakesNoZero.atByte ?_ b
  split
  · exact scaled_takesNoZero
  split
  · exact .pure _
  split
  · exact .pure _
  · exact .pure _

theorem unsignedNumber_takesNoZero (negative : Bool) : TakesNoZero (unsignedNumber negative) := by
  refine peek_looks.bind fun b => ?_
  split
  case h_1 eq => cases eq
  case h_2 eq =>
    cases eq
    refine .advance (by decide) (peek_looks.spares.bind fun next => ?_)
    split
    · exact .of_fails (Fails.ahead _)
    · exact afterWhole_takesNoZero
  case h_3 eq =>
    refine TakesNoZero.atByte ?_ b
    split
    · exact digitRun_takesNoZero.bind fun run => afterWhole_takesNoZero
    · exact .of_fails (Fails.bind fun _ => Fails.here _)

theorem expectText_takesNoZero (expected : String) : TakesNoZero (expectText expected) := by
  refine firstByte_bind fun b => ?_
  split
  case isTrue quote =>
    obtain rfl : b = 0x22 := eq_of_beq quote
    exact .advance (by decide) text_takesNoZero
  case isFalse => exact (TakesNoZero.of_fails (Fails.mismatch expected b)).atByte b

theorem expectBool_takesNoZero : TakesNoZero expectBool := by
  refine firstByte_bind fun b => ?_
  split
  case isTrue letter =>
    obtain rfl : b = 0x74 := eq_of_beq letter
    exact .advance (by decide) ((bareWord_takesNoZero (by decide)).bind fun _ => .pure _)
  split
  case isTrue letter =>
    obtain rfl : b = 0x66 := eq_of_beq letter
    exact .advance (by decide) ((bareWord_takesNoZero (by decide)).bind fun _ => .pure _)
  case isFalse => exact (TakesNoZero.of_fails (Fails.mismatch _ b)).atByte b

theorem expectNumber_takesNoZero (expected : String) : TakesNoZero (expectNumber expected) := by
  refine firstByte_bind fun b => ?_
  split
  case isTrue minus =>
    obtain rfl : b = 0x2D := eq_of_beq minus
    exact .advance (by decide) (unsignedNumber_takesNoZero true)
  split
  · exact (unsignedNumber_takesNoZero false).atByte b
  · exact (TakesNoZero.of_fails (Fails.mismatch expected b)).atByte b

theorem expectInteger_takesNoZero (expected : String) (least most : Int) :
    TakesNoZero (expectInteger expected least most) := by
  refine (expectNumber_takesNoZero expected).bind fun number => ?_
  have bounded : ∀ n : Int, TakesNoZero (if least ≤ n ∧ n ≤ most then pure n
      else failHere (.outOfBounds n expected) : Reader Int) := by
    intro n
    split
    · exact .pure n
    · exact .of_fails (Fails.here _)
  cases number with
  | natural n => exact bounded n
  | negative n => exact bounded n
  | float bits => exact .of_fails (Fails.here _)

theorem expectFloat_takesNoZero : TakesNoZero expectFloat := by
  refine (expectNumber_takesNoZero _).bind fun number => ?_
  cases number with
  | natural n => exact .pure _
  | negative n => exact .pure _
  | float bits => exact .pure _

theorem Demands.takesNoZero {b : UInt8} {a : α} {reader : Reader α} (demands : Demands b a reader)
    (solid : b ≠ 0) : TakesNoZero reader := by
  obtain ⟨next, rfl, seen, others⟩ := demands
  refine peekPastSpace_looks.bind fun b' => ?_
  by_cases same : b' = b
  · subst same
    intro c a' c' head ok ahead
    rw [seen] at ok
    cases ok
    exact advance_takesNoZeroAt solid c () c.advance head rfl ahead
  · exact (TakesNoZero.of_fails (others _ (by simpa using same))).atByte b'

theorem knownName_takesNoZero (kinds : List (String × α)) : TakesNoZero (knownName kinds) := by
  refine text_takesNoZero.bind fun name => ?_
  split
  · exact .pure _
  · exact .of_fails (Fails.here _)

theorem openTag_takesNoZeroAt : TakesNoZeroAt 0x7B openTag := by
  obtain ⟨quote, eq, demands⟩ := openTag_eq
  rw [eq]
  exact .advance (by decide) (demands.takesNoZero (by decide))

theorem expectTagged_takesNoZero (kinds : List (String × α)) {payload bare : α → Reader β}
    (inner : ∀ kind, TakesNoZero (payload kind)) (fails : ∀ kind, Fails (bare kind)) :
    TakesNoZero (expectTagged kinds payload bare) := by
  obtain ⟨next, eq, others, close, demands, tagged⟩ := expectTagged_eq fails
  rw [eq]
  refine firstByte_bind fun b => ?_
  by_cases brace : b = 0x7B
  · rw [brace, tagged]
    refine openTag_takesNoZeroAt.bind fun _ => (knownName_takesNoZero kinds).bind fun kind => ?_
    refine (colon_demands.takesNoZero (by decide)).bind fun _ => (inner kind).bind fun value => ?_
    exact (demands value).takesNoZero (by decide)
  · exact (TakesNoZero.of_fails (others b brace)).atByte b

theorem nextKey_takesNoZero (first : Bool) : TakesNoZero (nextKey first) := by
  refine peekPastSpace_looks.bind fun b => ?_
  split
  case h_1 eq => cases eq
  case h_2 => exact (TakesNoZero.pure _).atByte b
  case h_3 b' _ eq =>
    cases eq
    split
    · split
      case isTrue quote =>
        obtain rfl : b = 0x22 := eq_of_beq quote
        exact .advance (by decide) (.pure _)
      case isFalse => exact (TakesNoZero.of_fails (Fails.ahead _)).atByte b
    split
    case isTrue comma =>
      obtain rfl : b = 0x2C := eq_of_beq comma
      refine .advance (by decide) (peekPastSpace_looks.bind fun b => ?_)
      split
      case h_1 eq =>
        cases eq
        exact .advance (by decide) (.pure _)
      all_goals exact (TakesNoZero.of_fails (Fails.ahead _)).atByte b
    case isFalse => exact (TakesNoZero.of_fails (Fails.ahead _)).atByte b

theorem zero_notMem_of_document {reader : Reader α} (spares : TakesNoZero reader) {bytes : Bytes}
    {a : α} (ok : document reader bytes = .ok a) : 0 ∉ bytes := by
  obtain ⟨⟨_, last⟩, done, rfl⟩ := ok_of_map ok
  obtain ⟨a, c, read, ending⟩ := bind_eq_ok.1 done
  obtain ⟨_, _, ended, -⟩ := bind_eq_ok.1 ending
  obtain ⟨found, rest, looked, ended⟩ := bind_eq_ok.1 ended
  intro ahead
  have ahead := peekPastSpace_looks.spares c found rest looked (spares _ a c read ahead)
  have head := peekPastSpace_looks.head c found rest looked
  cases found with
  | some b => cases ended
  | none =>
    rw [List.head?_eq_none_iff.1 head] at ahead
    cases ahead

theorem high_of_mem_escapeChar {c d : Char} (mem : d ∈ escapeChar c) : 32 ≤ d.toNat := by
  have digits : ∀ n < 16, 32 ≤ (Text.digit n).toNat := by decide
  by_cases short : ∃ escape ∈ shortEscapes, c = escape.2
  · have all : shortEscapes.all (fun escape => (escapeChar escape.2).all (32 ≤ ·.toNat)) = true := rfl
    obtain ⟨escape, known, rfl⟩ := short
    exact of_decide_eq_true (List.all_eq_true.1 (List.all_eq_true.1 all escape known) d mem)
  rw [escapeChar_of_not_short fun escape known same => short ⟨escape, known, same⟩] at mem
  split at mem
  case isTrue low =>
    simp only [List.mem_cons, List.not_mem_nil, or_false] at mem
    rcases mem with rfl | rfl | rfl | rfl | rfl | rfl
    · decide
    · decide
    · decide
    · decide
    · exact digits _ (by omega)
    · exact digits _ (by omega)
  case isFalse high =>
    rw [List.mem_singleton.1 mem]
    exact Nat.not_lt.1 high

theorem zero_notMem_utf8 {chars : List Char} (high : ∀ c ∈ chars, 32 ≤ c.toNat) :
    0 ∉ utf8 chars := by
  intro mem
  obtain ⟨c, inside, mem⟩ := List.mem_flatMap.1 mem
  by_cases quote : c = '"'
  · subst quote
    revert mem
    decide
  by_cases mark : c = '\\'
  · subst mark
    revert mem
    decide
  · exact (plainByte_of_mem quote mark (high c inside) mem).2.2 (by decide)

theorem zero_notMem_text (value : String) :
    0 ∉ utf8 (value.toList.flatMap escapeChar ++ ['"']) := by
  refine zero_notMem_utf8 fun d mem => ?_
  rcases List.mem_append.1 mem with mem | mem
  · obtain ⟨c, -, mem⟩ := List.mem_flatMap.1 mem
    exact high_of_mem_escapeChar mem
  · rw [List.mem_singleton.1 mem]
    decide

theorem zero_notMem_digits {bytes : Bytes} (digits : ∀ b ∈ bytes, isDigit b = true) : 0 ∉ bytes :=
  fun mem => ne_zero_of_isDigit (digits 0 mem) rfl

theorem Exponent.zero_notMem {bytes : Bytes} (exponent : Exponent bytes) : 0 ∉ bytes := by
  cases exponent with
  | none => simp
  | some signed _ all =>
    rcases signed with rfl | rfl
    · simpa using zero_notMem_digits all
    · simpa using zero_notMem_digits all

theorem Unsigned.zero_notMem {bytes : Bytes} (number : Unsigned bytes) : 0 ∉ bytes := by
  obtain @⟨whole, behind, -, all, rest⟩ := number
  refine List.not_mem_append (zero_notMem_digits all) ?_
  cases rest with
  | fraction _ all last =>
    refine List.not_mem_cons_of_ne_of_not_mem (by decide) ?_
    exact List.not_mem_append (zero_notMem_digits all) last.zero_notMem
  | exponent last => exact last.zero_notMem

theorem Signed.zero_notMem {bytes : Bytes} (number : Signed bytes) : 0 ∉ bytes := by
  cases number with
  | plus number => exact number.zero_notMem
  | minus number => exact List.not_mem_cons_of_ne_of_not_mem (by decide) number.zero_notMem

theorem zero_notMem_float (bits : UInt64) : 0 ∉ utf8 (writeFloat bits) := by
  unfold writeFloat
  split
  · exact (signed_text bits).zero_notMem
  · decide

theorem zero_notMem_integer (n : Int) : 0 ∉ utf8 (Text.signedDecimal n) := by
  have digits := zero_notMem_digits (DigitChars.decimal n.natAbs).isDigit
  unfold Text.signedDecimal
  split
  · rw [utf8_cons]
    exact List.not_mem_append (by decide) digits
  · exact digits

theorem zero_notMem_tagged (name : String) {chars : List Char} (inner : 0 ∉ utf8 chars) :
    0 ∉ utf8 (writeObject [writeMember name chars]) := by
  rw [utf8_tagged]
  refine List.not_mem_append (by decide) (List.not_mem_append (zero_notMem_text name) ?_)
  exact List.not_mem_append (by decide) (List.not_mem_append inner (by decide))

end Json

namespace Record

open Json Text

theorem readPayload_takesNoZero (kind : Kind) : TakesNoZero (readPayload kind) := by
  cases kind with
  | bool => exact expectBool_takesNoZero.map _
  | int => exact (expectInteger_takesNoZero _ _ _).map _
  | float => exact expectFloat_takesNoZero.map _
  | text => exact (expectText_takesNoZero _).map _

theorem readValue_takesNoZero : TakesNoZero readValue :=
  expectTagged_takesNoZero _ readPayload_takesNoZero fun _ => Fails.pending _

theorem readFields_takesNoZero (fuel : Nat) (first : Bool) :
    TakesNoZero (readFields fuel first) := by
  induction fuel generalizing first with
  | zero => exact .pure []
  | succ fuel ih =>
    refine (nextKey_takesNoZero first).bind fun more => ?_
    split
    · refine text_takesNoZero.bind fun name => ?_
      refine (colon_demands.takesNoZero (by decide)).bind fun _ => ?_
      exact readValue_takesNoZero.bind fun value => (ih false).map _
    · exact .pure []

theorem reader_takesNoZero : TakesNoZero reader := by
  refine firstByte_bind fun b => ?_
  split
  case isTrue brace =>
    obtain rfl : b = 0x7B := eq_of_beq brace
    refine .advance (by decide) (.congr (fun _ _ => enclosed_eq_ok) ?_)
    refine TakesNoZero.bind (fun c => readFields_takesNoZero _ true c) fun fields => ?_
    exact (closeObject_demands.takesNoZero (by decide)).map fun _ => fields
  case isFalse => exact (TakesNoZero.of_fails (Fails.mismatch _ b)).atByte b

theorem zero_notMem_writeValue (value : Value) : 0 ∉ utf8 (writeValue value) := by
  cases value with
  | bool b => cases b <;> exact zero_notMem_tagged _ (by decide)
  | int n => exact zero_notMem_tagged _ (zero_notMem_integer n.toInt)
  | float bits => exact zero_notMem_tagged _ (zero_notMem_float bits)
  | text s =>
    refine zero_notMem_tagged _ ?_
    rw [utf8_writeText]
    exact List.not_mem_append (by decide) (zero_notMem_text s)

theorem zero_notMem_fieldBytes (field : String × Value) : 0 ∉ fieldBytes field := by
  refine List.not_mem_append (zero_notMem_text field.1) ?_
  exact List.not_mem_append (by decide) (zero_notMem_writeValue field.2)

theorem zero_notMem_membersBytes (fields : List (String × Value)) : 0 ∉ membersBytes fields := by
  cases fields with
  | nil => simp [membersBytes]
  | cons field fields =>
    have others : 0 ∉ fields.flatMap fun field => 0x2C :: 0x22 :: fieldBytes field := by
      intro mem
      obtain ⟨field, -, mem⟩ := List.mem_flatMap.1 mem
      simp [zero_notMem_fieldBytes] at mem
    simp [membersBytes, zero_notMem_fieldBytes, others]

/-- No zero byte is written in a record. -/
theorem zero_notMem_toJson (record : Record) : 0 ∉ Utf8.encode record.toJson := by
  rw [encode_toJson]
  refine List.not_mem_append (by decide) ?_
  exact List.not_mem_append (zero_notMem_membersBytes record.entries) (by decide)

end Record

end TreeStore
