import Mathlib.Data.List.Forall2
import TreeStore.Proofs.Packed
import TreeStore.Record.Format
/-!
Records in JSON are read back as they were written, provided that they hold no float. `Reads` says
what a reader takes off the front, wherever that stands in a document.
-/
namespace TreeStore

open Text

namespace Json

/-- Whatever the position, the reader takes `front` away before `rest` and answers `value`. -/
def Reads {α : Type} (reader : Reader α) (front rest : Bytes) (value : α) : Prop :=
  ∀ line column, ∃ line' column',
    reader ⟨front ++ rest, line, column⟩ = .ok (value, ⟨rest, line', column'⟩)

namespace Reads

variable {α β : Type} {front more rest : Bytes}

theorem pure (value : α) (rest : Bytes) : Reads (Pure.pure value) [] rest value :=
  fun line column => ⟨line, column, rfl⟩

theorem bind {first : Reader α} {next : α → Reader β} {a : α} {b : β}
    (h : Reads first front (more ++ rest) a) (h' : Reads (next a) more rest b) :
    Reads (first >>= next) (front ++ more) rest b := by
  intro line column
  obtain ⟨line', column', eq⟩ := h line column
  obtain ⟨line'', column'', eq'⟩ := h' line' column'
  refine ⟨line'', column'', ?_⟩
  rw [List.append_assoc]
  exact (bind_of_ok eq).trans eq'

theorem map {reader : Reader α} (f : α → β) {a : α} (h : Reads reader front rest a) :
    Reads (f <$> reader) front rest (f a) := by
  intro line column
  obtain ⟨line', column', eq⟩ := h line column
  exact ⟨line', column', map_of_ok eq⟩

end Reads

def utf8 (chars : List Char) : Bytes := chars.flatMap String.utf8EncodeChar

theorem utf8_append (a b : List Char) : utf8 (a ++ b) = utf8 a ++ utf8 b := by
  simp [utf8]

theorem utf8_cons (c : Char) (rest : List Char) :
    utf8 (c :: rest) = String.utf8EncodeChar c ++ utf8 rest := by
  simp [utf8]

def IsPlainByte (b : UInt8) : Prop := b ≠ 0x22 ∧ b ≠ 0x5C ∧ ¬ b < 0x20

theorem scan_plainByte {b : UInt8} (plain : IsPlainByte b) (place : Nat) (rest : Bytes) :
    scan place (b :: rest) =
      (fun s => { s with bytes := b :: s.bytes }) <$> scan (place + 1) rest := by
  obtain ⟨quote, mark, high⟩ := plain
  rw [scan.eq_def]
  dsimp only
  rw [if_neg (by simpa using quote), if_neg (by simpa using mark), if_neg high]
  cases scan (place + 1) rest <;> rfl

theorem scan_plainBytes {bytes : Bytes} (plain : ∀ b ∈ bytes, IsPlainByte b) (place : Nat)
    (rest : Bytes) : scan place (bytes ++ rest) =
      (fun s => { s with bytes := bytes ++ s.bytes }) <$> scan (place + bytes.length) rest := by
  induction bytes generalizing place with
  | nil =>
    rw [List.nil_append]
    cases scan place rest <;> rfl
  | cons b bytes ih =>
    rw [List.cons_append, scan_plainByte (plain b (by simp)),
      ih fun b mem => plain b (List.mem_cons_of_mem _ mem)]
    have length : place + 1 + bytes.length = place + (b :: bytes).length := by
      rw [List.length_cons]
      omega
    rw [length]
    cases scan (place + (b :: bytes).length) rest <;> rfl

theorem plainByte_of_toNat {n : Nat} (small : n < 256) (quote : n ≠ 34) (mark : n ≠ 92)
    (high : 32 ≤ n) : IsPlainByte (UInt8.ofNat n) := by
  have value : (UInt8.ofNat n).toNat = n := UInt8.toNat_ofNat_of_lt' small
  refine ⟨fun eq => quote ?_, fun eq => mark ?_, fun below => ?_⟩
  · rw [← value, eq]
    rfl
  · rw [← value, eq]
    rfl
  · rw [UInt8.lt_iff_toNat_lt, value] at below
    exact absurd below (Nat.not_lt.2 high)

theorem plainByte_of_mem {c : Char} (quote : c ≠ '"') (mark : c ≠ '\\') (high : 32 ≤ c.toNat)
    {b : UInt8} (mem : b ∈ String.utf8EncodeChar c) : IsPlainByte b := by
  have valid : c.toNat < 0xD800 ∨ 0xDFFF < c.toNat ∧ c.toNat < 0x110000 := c.valid
  have not_quote : c.toNat ≠ 34 := fun eq => quote (Char.toNat_inj.1 eq)
  have not_mark : c.toNat ≠ 92 := fun eq => mark (Char.toNat_inj.1 eq)
  rw [String.utf8EncodeChar, show c.val.toNat = c.toNat from rfl] at mem
  generalize c.toNat = n at *
  split at mem
  · rw [List.mem_singleton.1 mem]
    exact plainByte_of_toNat (by omega) not_quote not_mark high
  -- Longer forms have no byte below 128.
  split at mem
  · simp only [List.mem_cons, List.not_mem_nil, or_false] at mem
    rcases mem with rfl | rfl
    all_goals exact plainByte_of_toNat (by omega) (by omega) (by omega) (by omega)
  split at mem
  · simp only [List.mem_cons, List.not_mem_nil, or_false] at mem
    rcases mem with rfl | rfl | rfl
    all_goals exact plainByte_of_toNat (by omega) (by omega) (by omega) (by omega)
  · simp only [List.mem_cons, List.not_mem_nil, or_false] at mem
    rcases mem with rfl | rfl | rfl | rfl
    all_goals exact plainByte_of_toNat (by omega) (by omega) (by omega) (by omega)

def digitByte (n : Nat) : UInt8 := UInt8.ofNat (digit n).toNat

theorem utf8EncodeChar_digit : ∀ n < 16, String.utf8EncodeChar (digit n) = [digitByte n] := by
  decide

theorem hexValue4?_control :
    ∀ n < 32, hexValue4? 0x30 0x30 (digitByte (n / 16)) (digitByte (n % 16)) = some n := by
  decide

theorem scan_short {b : UInt8} {c : Char} (other : b ≠ 0x75) (short : shortEscape? b = some c)
    (place : Nat) (rest : Bytes) :
    scan place (0x5C :: b :: rest) = Scanned.prepend c <$> scan (place + 2) rest := by
  rw [scan.eq_def]
  dsimp only
  rw [if_neg (by decide), if_pos (by decide), if_neg (by simpa using other), short]

theorem scan_control {c : Char} (low : c.toNat < 32) (place : Nat) (rest : Bytes) :
    scan place (0x5C :: 0x75 :: 0x30 :: 0x30 :: digitByte (c.toNat / 16) ::
      digitByte (c.toNat % 16) :: rest) = Scanned.prepend c <$> scan (place + 6) rest := by
  have no_low : isLowSurrogate c.toNat = false := by
    simp [isLowSurrogate]
    omega
  have no_high : isHighSurrogate c.toNat = false := by
    simp [isHighSurrogate]
    omega
  rw [scan.eq_def]
  dsimp only
  rw [if_neg (by decide), if_pos (by decide), if_pos (by decide), hexValue4?_control _ low]
  dsimp only
  rw [no_low, no_high, if_neg (by decide), if_pos (by decide), Char.ofNat_toNat]

def shortEscapes : List (UInt8 × Char) :=
  [(0x22, '"'), (0x5C, '\\'), (0x62, '\x08'), (0x66, '\x0c'), (0x6E, '\n'), (0x72, '\r'),
    (0x74, '\t')]

theorem short_of_mem : ∀ escape ∈ shortEscapes, escape.1 ≠ 0x75 ∧
    shortEscape? escape.1 = some escape.2 ∧ utf8 (escapeChar escape.2) = [0x5C, escape.1] := by
  decide

theorem escapeChar_of_not_short {c : Char} (long : ∀ escape ∈ shortEscapes, c ≠ escape.2) :
    escapeChar c = if c.toNat < 0x20 then
      ['\\', 'u', '0', '0', digit (c.toNat / 16), digit (c.toNat % 16)] else [c] := by
  simp only [shortEscapes, List.mem_cons, List.not_mem_nil, or_false, forall_eq_or_imp,
    forall_eq] at long
  obtain ⟨a, b, c, d, e, f, g⟩ := long
  rw [escapeChar, if_neg a, if_neg b, if_neg c, if_neg d, if_neg e, if_neg f, if_neg g]

theorem scan_escapeChar (c : Char) (place : Nat) (rest : Bytes) :
    ∃ place', scan place (utf8 (escapeChar c) ++ rest) =
      Scanned.prepend c <$> scan place' rest := by
  by_cases short : ∃ escape ∈ shortEscapes, c = escape.2
  · obtain ⟨⟨b, c⟩, mem, rfl⟩ := short
    obtain ⟨other, short, bytes⟩ := short_of_mem _ mem
    rw [bytes]
    exact ⟨_, scan_short other short place rest⟩
  have long : ∀ escape ∈ shortEscapes, c ≠ escape.2 := fun escape mem same =>
    short ⟨escape, mem, same⟩
  rw [escapeChar_of_not_short long]
  split
  case isTrue low =>
    have bytes : utf8 ['\\', 'u', '0', '0', digit (c.toNat / 16), digit (c.toNat % 16)] =
        [0x5C, 0x75, 0x30, 0x30, digitByte (c.toNat / 16), digitByte (c.toNat % 16)] := by
      rw [utf8_cons, utf8_cons, utf8_cons, utf8_cons, utf8_cons, utf8_cons,
        utf8EncodeChar_digit _ (by omega), utf8EncodeChar_digit _ (by omega)]
      rfl
    rw [bytes]
    exact ⟨_, scan_control low place rest⟩
  case isFalse high =>
    have quote : c ≠ '"' := long (0x22, '"') (by decide)
    have mark : c ≠ '\\' := long (0x5C, '\\') (by decide)
    have plain : ∀ b ∈ utf8 [c], IsPlainByte b := fun b mem =>
      plainByte_of_mem quote mark (Nat.not_lt.1 high) (by simpa [utf8] using mem)
    refine ⟨place + (utf8 [c]).length, (scan_plainBytes plain place rest).trans ?_⟩
    cases scan (place + (utf8 [c]).length) rest with
    | error => rfl
    | ok s => simp [Scanned.prepend, Functor.map, Except.map, utf8]

theorem scan_escaped (chars : List Char) (place : Nat) (rest : Bytes) :
    ∃ stop, scan place (utf8 (chars.flatMap escapeChar) ++ 0x22 :: rest) =
      .ok ⟨utf8 chars, stop, rest⟩ := by
  induction chars generalizing place with
  | nil =>
    refine ⟨place + 1, ?_⟩
    rw [scan.eq_def]
    rfl
  | cons c chars ih =>
    rw [List.flatMap_cons, utf8_append, List.append_assoc]
    obtain ⟨place', scanned⟩ := scan_escapeChar c place
      (utf8 (chars.flatMap escapeChar) ++ 0x22 :: rest)
    obtain ⟨stop, eq⟩ := ih place'
    rw [scanned, eq, utf8_cons]
    exact ⟨stop, rfl⟩

theorem reads_text (value : String) (rest : Bytes) :
    Reads text (utf8 (value.toList.flatMap escapeChar ++ ['"'])) rest value := by
  intro line column
  obtain ⟨stop, scanned⟩ := scan_escaped value.toList 0 rest
  have bytes : utf8 (value.toList.flatMap escapeChar ++ ['"']) ++ rest =
      utf8 (value.toList.flatMap escapeChar) ++ 0x22 :: rest := by
    rw [utf8_append, List.append_assoc]
    rfl
  have decoded : Utf8.decode (utf8 value.toList) = .ok value := Utf8.decode_encode value
  refine ⟨line, column + stop, ?_⟩
  unfold text
  dsimp only
  rw [bytes, scanned]
  dsimp only
  rw [decoded]

theorem digitByte_spec : ∀ n < 10, isDigit (digitByte n) = true ∧ (digitByte n).toNat - 48 = n ∧
    utf8 [digit n] = [digitByte n] := by
  decide

theorem utf8_decimal_of_lt {n : Nat} (small : n < 10) : utf8 (decimal n) = [digitByte n] := by
  rw [decimal_of_lt small, (digitByte_spec n small).2.2]

theorem utf8_decimal_of_le {n : Nat} (large : 10 ≤ n) :
    utf8 (decimal n) = utf8 (decimal (n / 10)) ++ [digitByte (n % 10)] := by
  rw [decimal_of_le large, utf8_append, (digitByte_spec _ (Nat.mod_lt n (by decide))).2.2]

def DigitChars (chars : List Char) : Prop := ∀ c ∈ chars, ∃ n < 10, c = digit n

namespace DigitChars

variable {chars more : List Char}

theorem append (all : DigitChars chars) (all' : DigitChars more) : DigitChars (chars ++ more) :=
  fun c mem => (List.mem_append.1 mem).elim (all c) (all' c)

theorem sub (all : DigitChars chars) (sub : more ⊆ chars) : DigitChars more :=
  fun c mem => all c (sub mem)

theorem zeros (count : Nat) : DigitChars (List.replicate count '0') :=
  fun _ mem => ⟨0, by decide, List.eq_of_mem_replicate mem⟩

theorem decimal (n : Nat) : DigitChars (decimal n) := by
  induction n using Nat.strongRecOn with
  | ind n ih =>
    by_cases small : n < 10
    · rw [decimal_of_lt small]
      exact fun c mem => ⟨n, small, List.mem_singleton.1 mem⟩
    · rw [decimal_of_le (Nat.not_lt.1 small)]
      refine (ih (n / 10) (by omega)).append fun c mem => ?_
      exact ⟨n % 10, Nat.mod_lt n (by decide), List.mem_singleton.1 mem⟩

theorem isDigit (all : DigitChars chars) : ∀ b ∈ utf8 chars, isDigit b = true := by
  intro b mem
  obtain ⟨c, mem, inside⟩ := List.mem_flatMap.1 mem
  obtain ⟨n, small, rfl⟩ := all c mem
  rw [utf8EncodeChar_digit n (by omega), List.mem_singleton] at inside
  rw [inside]
  exact (digitByte_spec n small).1

theorem ne_nil (all : DigitChars chars) (some : chars ≠ []) : utf8 chars ≠ [] := by
  obtain ⟨c, rest, rfl⟩ := List.exists_cons_of_ne_nil some
  obtain ⟨n, small, rfl⟩ := all c (by simp)
  rw [utf8_cons, utf8EncodeChar_digit n (by omega)]
  exact List.cons_ne_nil _ _

end DigitChars

theorem head_decimal (n : Nat) : ∃ b rest, utf8 (decimal n) = b :: rest ∧ isDigit b = true ∧
    (0 < n → b ≠ 0x30) := by
  induction n using Nat.strongRecOn with
  | ind n ih =>
    by_cases small : n < 10
    · have digits : ∀ n < 10, 0 < n → digitByte n ≠ 0x30 := by decide
      exact ⟨_, [], utf8_decimal_of_lt small, (digitByte_spec n small).1, digits n small⟩
    · obtain ⟨b, rest, eq, digit, other⟩ := ih (n / 10) (by omega)
      refine ⟨b, rest ++ [digitByte (n % 10)], ?_, digit, fun _ => other (by omega)⟩
      rw [utf8_decimal_of_le (Nat.not_lt.1 small), eq, List.cons_append]

theorem gather_cons (bound acc : Nat) (d : UInt8) (rest : Bytes) :
    gather bound acc (d :: rest) =
      if acc * 10 + (d.toNat - 48) < bound then
        ((gather bound (acc * 10 + (d.toNat - 48)) rest).1,
          (gather bound (acc * 10 + (d.toNat - 48)) rest).2 + 1)
      else (acc, 0) := by
  rw [gather]

theorem gather_append {bound acc value : Nat} {front : Bytes}
    (taken : gather bound acc front = (value, front.length)) (rest : Bytes) :
    gather bound acc (front ++ rest) =
      ((gather bound value rest).1, front.length + (gather bound value rest).2) := by
  induction front generalizing acc with
  | nil =>
    obtain rfl : acc = value := congrArg Prod.fst taken
    simp
  | cons d front ih =>
    rw [gather_cons] at taken
    rw [List.cons_append, gather_cons]
    split at taken
    case isFalse => exact absurd (congrArg Prod.snd taken) (by simp)
    case isTrue below =>
      obtain ⟨first, count⟩ := Prod.mk.inj taken
      have inner : gather bound (acc * 10 + (d.toNat - 48)) front = (value, front.length) :=
        Prod.ext first (Nat.succ.inj count)
      rw [if_pos below, ih inner, List.length_cons, Nat.add_right_comm]

theorem gather_decimal {bound n : Nat} (small : n < bound) :
    gather bound 0 (utf8 (decimal n)) = (n, (utf8 (decimal n)).length) := by
  induction n using Nat.strongRecOn with
  | ind n ih =>
    by_cases one : n < 10
    · rw [utf8_decimal_of_lt one]
      have value := (digitByte_spec n one).2.1
      simp [gather, value, small]
    · have last := (digitByte_spec _ (Nat.mod_lt n (by decide))).2.1
      have whole : n / 10 * 10 + n % 10 = n := by omega
      rw [utf8_decimal_of_le (Nat.not_lt.1 one), gather_append (ih (n / 10) (by omega) (by omega))]
      simp [gather, last, whole, small]

def NoDigit (rest : Bytes) : Prop := ∀ b more, rest = b :: more → isDigit b = false

theorem reads_digitRun {front rest : Bytes} (digits : ∀ b ∈ front, isDigit b = true)
    (stops : NoDigit rest) : Reads digitRun front rest front := by
  intro line column
  have beyond : rest.takeWhile isDigit = [] ∧ rest.dropWhile isDigit = rest := by
    cases rest with
    | nil => exact ⟨rfl, rfl⟩
    | cons b more => simp [stops b more rfl]
  have taken : Cursor.digits ⟨front ++ rest, line, column⟩ = front := by
    rw [Cursor.digits, List.takeWhile_append_of_pos digits, beyond.1, List.append_nil]
  refine ⟨line, column + front.length, ?_⟩
  rw [digitRun, Cursor.skipDigits, taken, List.dropWhile_append_of_pos digits, beyond.2]

def EndsMember (rest : Bytes) : Prop := ∃ tail, rest = 0x7D :: tail ∨ rest = 0x2C :: tail

theorem endsMember_brace (tail : Bytes) : EndsMember (0x7D :: tail) := ⟨tail, .inl rfl⟩

theorem EndsMember.noDigit {rest : Bytes} (ends : EndsMember rest) : NoDigit rest := by
  rintro b more rfl
  obtain ⟨tail, eq | eq⟩ := ends <;> cases eq <;> rfl

theorem noDigit_brace (tail : Bytes) : NoDigit (0x7D :: tail) := (endsMember_brace tail).noDigit

theorem unsignedNumber_of_digit {b : UInt8} (other : b ≠ 0x30) (digit : isDigit b = true)
    (negative : Bool) {c : Cursor} (first : peek c = .ok (some b, c)) :
    unsignedNumber negative c = (do
      let run ← digitRun
      let (value, taken) := gather wholeBound 0 run
      afterWhole negative value (run.length - taken) : Reader Number) c := by
  unfold unsignedNumber
  refine (bind_of_ok first).trans ?_
  simp [digit]

theorem unsignedNumber_decimal {n : Nat} (small : n < wholeBound) (negative : Bool) {rest : Bytes}
    (ends : EndsMember rest) (line column : Nat) : ∃ line' column',
      unsignedNumber negative ⟨utf8 (decimal n) ++ rest, line, column⟩ =
        afterWhole negative n 0 ⟨rest, line', column'⟩ := by
  rcases Nat.eq_zero_or_pos n with rfl | positive
  · rw [utf8_decimal_of_lt (by decide)]
    refine ⟨line, column + 1, ?_⟩
    obtain ⟨tail, rfl | rfl⟩ := ends <;> rfl
  obtain ⟨b, more, eq, digit, other⟩ := head_decimal n
  have first : peek ⟨utf8 (decimal n) ++ rest, line, column⟩ =
      .ok (some b, ⟨utf8 (decimal n) ++ rest, line, column⟩) := by
    simp [peek, eq]
  obtain ⟨line', column', run⟩ :=
    reads_digitRun (DigitChars.decimal n).isDigit ends.noDigit line column
  refine ⟨line', column', ?_⟩
  rw [unsignedNumber_of_digit (other positive) digit negative first]
  refine (bind_of_ok run).trans ?_
  rw [gather_decimal small]
  dsimp only
  rw [Nat.sub_self]

theorem reads_natural {n : Nat} (small : n < wholeBound) {rest : Bytes} (ends : EndsMember rest) :
    Reads (unsignedNumber false) (utf8 (decimal n)) rest (.natural n) := by
  intro line column
  obtain ⟨line', column', eq⟩ := unsignedNumber_decimal small false ends line column
  refine ⟨line', column', eq.trans ?_⟩
  obtain ⟨tail, rfl | rfl⟩ := ends <;> rfl

theorem reads_negative {n : Nat} (positive : 0 < n) (small : n ≤ Binary64.signBit) {rest : Bytes}
    (ends : EndsMember rest) :
    Reads (unsignedNumber true) (utf8 (decimal n)) rest (.negative (-n)) := by
  intro line column
  have below : n < wholeBound := Nat.lt_of_le_of_lt small (by decide)
  obtain ⟨line', column', eq⟩ := unsignedNumber_decimal below true ends line column
  have whole : ¬ (n = 0 ∨ Binary64.signBit < n) := by omega
  refine ⟨line', column', eq.trans ?_⟩
  have last : afterWhole true n 0 ⟨rest, line', column'⟩ =
      (if n = 0 ∨ Binary64.signBit < n then
        Pure.pure (.float (Binary64.withSign true (Binary64.ofNat n)))
      else Pure.pure (.negative (-n)) : Reader Number) ⟨rest, line', column'⟩ := by
    obtain ⟨tail, rfl | rfl⟩ := ends <;> rfl
  rw [last, if_neg whole]
  rfl

theorem isSpace_of_isDigit {b : UInt8} (digit : isDigit b = true) :
    isSpace b = false ∧ b ≠ 0x2D := by
  simp only [isDigit, Bool.and_eq_true, decide_eq_true_eq, UInt8.le_iff_toNat_le] at digit
  simp only [isSpace, Bool.or_eq_false_iff, beq_eq_false_iff_ne, ne_eq, ← UInt8.toNat_inj]
  simp at digit ⊢
  omega

theorem firstByte_of_not_space {b : UInt8} (solid : isSpace b = false) (rest : Bytes)
    (line column : Nat) :
    firstByte ⟨b :: rest, line, column⟩ = .ok (b, ⟨b :: rest, line, column⟩) := by
  have no_line : (b == 0x0A) = false := by
    simp only [isSpace, Bool.or_eq_false_iff] at solid
    exact solid.1.1.2
  have stays : Cursor.skipSpace ⟨b :: rest, line, column⟩ = ⟨b :: rest, line, column⟩ := by
    simp [Cursor.skipSpace, Cursor.skipSpaceFrom, no_line, solid]
  have looked : peekPastSpace ⟨b :: rest, line, column⟩ =
      .ok (some b, ⟨b :: rest, line, column⟩) := by
    rw [peekPastSpace, stays]
    rfl
  exact (bind_of_ok looked).trans rfl

theorem reads_number (expected : String) {n : Int} (low : -Binary64.signBit ≤ n)
    (high : n < wholeBound) {rest : Bytes} (ends : EndsMember rest) :
    ∃ number, Reads (expectNumber expected) (utf8 (signedDecimal n)) rest number ∧
      (number = .natural n.natAbs ∧ 0 ≤ n ∨ number = .negative n ∧ n < 0) := by
  unfold signedDecimal
  split
  case isTrue below =>
    refine ⟨.negative n, fun line column => ?_, .inr ⟨rfl, below⟩⟩
    have value : -(n.natAbs : Int) = n := by omega
    obtain ⟨line', column', eq⟩ :=
      reads_negative (by omega : 0 < n.natAbs) (by omega) ends line (column + 1)
    rw [value] at eq
    exact ⟨line', column', eq⟩
  case isFalse above =>
    refine ⟨.natural n.natAbs, fun line column => ?_, .inl ⟨rfl, Int.not_lt.1 above⟩⟩
    obtain ⟨line', column', eq⟩ :=
      reads_natural (by omega : n.natAbs < wholeBound) ends line column
    obtain ⟨b, more, digits, digit, -⟩ := head_decimal n.natAbs
    obtain ⟨solid, no_minus⟩ := isSpace_of_isDigit digit
    refine ⟨line', column', ?_⟩
    rw [digits] at eq ⊢
    refine (bind_of_ok (firstByte_of_not_space solid (more ++ rest) line column)).trans ?_
    have minus : ¬ (b == 0x2D) = true := by simpa using no_minus
    rw [if_neg minus, if_pos digit]
    exact eq

theorem reads_integer (expected : String) {least most n : Int} (low : least ≤ n) (high : n ≤ most)
    (least_fits : -Binary64.signBit ≤ least) (most_fits : most < wholeBound) {rest : Bytes}
    (ends : EndsMember rest) :
    Reads (expectInteger expected least most) (utf8 (signedDecimal n)) rest n := by
  intro line column
  obtain ⟨number, reads, kinds⟩ :=
    reads_number expected (Int.le_trans least_fits low) (Int.lt_of_le_of_lt high most_fits) ends
  obtain ⟨line', column', eq⟩ := reads line column
  refine ⟨line', column', (bind_of_ok eq).trans ?_⟩
  rcases kinds with ⟨rfl, above⟩ | ⟨rfl, -⟩
  · have value : (n.natAbs : Int) = n := Int.natAbs_of_nonneg above
    dsimp only
    rw [value, if_pos ⟨low, high⟩]
    rfl
  · dsimp only
    rw [if_pos ⟨low, high⟩]
    rfl

theorem reads_firstByte {b : UInt8} (solid : isSpace b = false) (rest : Bytes) :
    Reads firstByte [] (b :: rest) b :=
  fun line column => ⟨line, column, firstByte_of_not_space solid rest line column⟩

theorem Reads.first {α : Type} {b : UInt8} {more rest : Bytes} {next : UInt8 → Reader α} {a : α}
    (solid : isSpace b = false) (h : Reads (next b) (b :: more) rest a) :
    Reads (firstByte >>= next) (b :: more) rest a :=
  (reads_firstByte solid _).bind h

theorem reads_advance (b : UInt8) (rest : Bytes) : Reads advance [b] rest () := by
  intro line column
  refine ⟨(Cursor.advance ⟨b :: rest, line, column⟩).line,
    (Cursor.advance ⟨b :: rest, line, column⟩).column, ?_⟩
  show Except.ok ((), Cursor.advance ⟨b :: rest, line, column⟩) = _
  unfold Cursor.advance
  dsimp only
  split <;> rfl

theorem reads_bool (b : Bool) (rest : Bytes) : Reads expectBool (utf8 (writeBool b)) rest b := by
  intro line column
  cases b with
  | false => exact ⟨_, _, rfl⟩
  | true => exact ⟨_, _, rfl⟩

theorem utf8_writeText (value : String) :
    utf8 (writeText value) = [0x22] ++ utf8 (value.toList.flatMap escapeChar ++ ['"']) := by
  rw [writeText, List.cons_append, utf8_cons]
  rfl

theorem reads_quoted (expected value : String) (rest : Bytes) :
    Reads (expectText expected) (utf8 (writeText value)) rest value := by
  rw [utf8_writeText]
  apply Reads.first (by decide)
  rw [if_pos (by decide)]
  exact (reads_advance _ _).bind (reads_text value rest)

theorem reads_knownName {α : Type} {kinds : List (String × α)} {name : String} {kind : α}
    (known : kinds.lookup name = some kind) (rest : Bytes) :
    Reads (knownName kinds) (utf8 (name.toList.flatMap escapeChar ++ ['"'])) rest kind := by
  intro line column
  obtain ⟨line', column', eq⟩ := reads_text name rest line column
  refine ⟨line', column', (bind_of_ok eq).trans ?_⟩
  rw [known]
  rfl

theorem utf8_tagged (name : String) (chars : List Char) :
    utf8 (writeObject [writeMember name chars]) =
      [0x7B, 0x22] ++ (utf8 (name.toList.flatMap escapeChar ++ ['"']) ++
        ([0x3A] ++ (utf8 chars ++ [0x7D]))) := by
  rw [writeObject, List.intercalate_singleton, writeMember, List.cons_append, utf8_cons,
    utf8_append, utf8_append, utf8_writeText, utf8_cons]
  simp only [List.append_assoc]
  rfl

def memberBytes (name : String) (value : List Char) : Bytes :=
  utf8 (name.toList.flatMap escapeChar ++ ['"']) ++ ([0x3A] ++ utf8 value)

theorem utf8_member (name : String) (value : List Char) :
    utf8 (writeMember name value) = 0x22 :: memberBytes name value := by
  rw [writeMember, utf8_append, utf8_writeText, utf8_cons, List.append_assoc]
  rfl

theorem utf8_intercalate_cons (first : List Char) (others : List (List Char)) :
    utf8 ([','].intercalate (first :: others)) =
      utf8 first ++ others.flatMap fun member => 0x2C :: utf8 member := by
  induction others generalizing first with
  | nil => simp
  | cons member others ih =>
    rw [List.intercalate_cons_cons, utf8_append, utf8_append, ih]
    simp only [List.flatMap_cons, List.append_assoc, List.cons_append]
    rfl

theorem encode_writeObject (members : List (List Char)) :
    Utf8.encode (String.ofList (writeObject members)) =
      [0x7B] ++ (utf8 ([','].intercalate members) ++ [0x7D]) := by
  rw [Utf8.encode, String.toList_ofList, writeObject, List.cons_append]
  exact (utf8_cons _ _).trans (congrArg _ (utf8_append _ _))

theorem Reads.braced {α : Type} {items : Reader α} {front rest : Bytes} {value : α}
    (h : Reads items front (0x7D :: rest) value) :
    Reads (enclosed items closeObject Cursor.leaveObject) (front ++ [0x7D]) rest value := by
  intro line column
  obtain ⟨line', column', eq⟩ := h line column
  refine ⟨(Cursor.advance ⟨0x7D :: rest, line', column'⟩).line,
    (Cursor.advance ⟨0x7D :: rest, line', column'⟩).column, ?_⟩
  have closing : front ++ [0x7D] ++ rest = front ++ 0x7D :: rest := by simp
  rw [closing, enclosed, eq]
  rfl

theorem document_of_reader {α : Type} {reader : Reader α} {bytes : Bytes} {value : α}
    {line column : Nat} (eq : reader (.start bytes) = .ok (value, ⟨[], line, column⟩)) :
    document reader bytes = .ok value := by
  have read : (do let result ← reader; endOfDocument; pure result : Reader α)
      (.start bytes) = .ok (value, ⟨[], line, column⟩) :=
    (bind_of_ok eq).trans rfl
  rw [document, read]
  rfl

theorem reader_of_document {α : Type} {reader : Reader α} {bytes : Bytes} {value : α}
    (ok : document reader bytes = .ok value) : ∃ c, reader (.start bytes) = .ok (value, c) := by
  obtain ⟨⟨_, last⟩, done, rfl⟩ := ok_of_map ok
  obtain ⟨value, c, read, closing⟩ := bind_eq_ok.1 done
  obtain ⟨_, _, -, eq⟩ := bind_eq_ok.1 closing
  cases eq
  exact ⟨c, read⟩

theorem reads_openTag (rest : Bytes) : Reads openTag [0x7B, 0x22] rest () :=
  fun _ _ => ⟨_, _, rfl⟩

theorem reads_colon (rest : Bytes) : Reads colon [0x3A] rest () := fun _ _ => ⟨_, _, rfl⟩

theorem reads_nextKey_first (rest : Bytes) : Reads (nextKey true) [0x22] rest true :=
  fun _ _ => ⟨_, _, rfl⟩

theorem reads_nextKey_more (rest : Bytes) : Reads (nextKey false) [0x2C, 0x22] rest true :=
  fun _ _ => ⟨_, _, rfl⟩

theorem reads_tagged {α β : Type} {kinds : List (String × α)} {payload bare : α → Reader β}
    {name : String} {kind : α} {chars : List Char} {value : β}
    (known : kinds.lookup name = some kind)
    (inner : ∀ rest, Reads (payload kind) (utf8 chars) (0x7D :: rest) value) (rest : Bytes) :
    Reads (expectTagged kinds payload bare) (utf8 (writeObject [writeMember name chars])) rest
      value := by
  rw [utf8_tagged]
  apply Reads.first (by decide)
  rw [if_pos (by decide)]
  refine (reads_openTag _).bind ?_
  refine (reads_knownName known _).bind ((reads_colon _).bind ((inner rest).bind ?_))
  exact fun _ _ => ⟨_, _, rfl⟩

end Json

namespace Record

open Json

def FloatFree (record : Record) : Prop :=
  ∀ field ∈ record.entries, ∀ bits, field.2 ≠ .float bits

def ReadAs (value value' : Value) : Prop :=
  ∀ rest, Reads readValue (utf8 (writeValue value)) rest value'

theorem readAs_self {value : Value} (whole : ∀ bits, value ≠ .float bits) :
    ReadAs value value := by
  intro rest
  cases value with
  | bool b =>
    have known : Kind.names.lookup "bool" = some .bool := rfl
    exact reads_tagged known (fun rest => (reads_bool b _).map Value.bool) rest
  | int n =>
    have known : Kind.names.lookup "int" = some .int := rfl
    refine reads_tagged known (fun rest => ?_) rest
    have read := reads_integer "i64" n.minValue_le_toInt n.toInt_le (by decide) (by decide)
      (endsMember_brace rest)
    have value := read.map fun n => Value.int (Int64.ofInt n)
    rwa [Int64.ofInt_toInt] at value
  | float bits => exact absurd rfl (whole bits)
  | text s =>
    have known : Kind.names.lookup "str" = some .text := rfl
    exact reads_tagged known (fun rest => (reads_quoted "a string" s _).map Value.text) rest

abbrev FieldsReadAs : List (String × Value) → List (String × Value) → Prop :=
  List.Forall₂ fun field field' => field'.1 = field.1 ∧ ReadAs field.2 field'.2

def fieldBytes (field : String × Value) : Bytes :=
  utf8 (field.1.toList.flatMap escapeChar ++ ['"']) ++ ([0x3A] ++ utf8 (writeValue field.2))

theorem utf8_writeMember (field : String × Value) :
    utf8 (writeMember field.1 (writeValue field.2)) = 0x22 :: fieldBytes field :=
  utf8_member field.1 (writeValue field.2)

theorem reads_field {field : String × Value} {value : Value} (as : ReadAs field.2 value)
    {fuel : Nat} {fields : List (String × Value)} {more rest : Bytes}
    (others : Reads (readFields fuel false) more rest fields) :
    Reads (do
        let name ← text
        colon
        let value ← readValue
        ((name, value) :: ·) <$> readFields fuel false) (fieldBytes field ++ more) rest
      ((field.1, value) :: fields) := by
  unfold fieldBytes
  simp only [List.append_assoc]
  exact (reads_text field.1 _).bind ((reads_colon _).bind ((as _).bind (others.map _)))

theorem reads_moreFields {fields fields' : List (String × Value)} (as : FieldsReadAs fields fields')
    {fuel : Nat} (enough : fields.length < fuel) (rest : Bytes) :
    Reads (readFields fuel false)
      (fields.flatMap fun field => 0x2C :: 0x22 :: fieldBytes field) (0x7D :: rest) fields' := by
  induction as generalizing fuel with
  | nil =>
    obtain ⟨fuel, rfl⟩ := Nat.exists_eq_add_of_lt enough
    exact fun _ _ => ⟨_, _, rfl⟩
  | @cons field field' fields fields' as _ ih =>
    cases fuel with
    | zero => exact absurd enough (Nat.not_lt_zero _)
    | succ fuel =>
      have read := reads_field as.2 (ih (Nat.lt_of_succ_lt_succ enough))
      rw [← as.1] at read
      exact (reads_nextKey_more _).bind read

def membersBytes : List (String × Value) → Bytes
  | [] => []
  | field :: fields =>
    0x22 :: fieldBytes field ++ fields.flatMap fun field => 0x2C :: 0x22 :: fieldBytes field

theorem utf8_intercalate (fields : List (String × Value)) :
    utf8 ([','].intercalate (fields.map fun field => writeMember field.1 (writeValue field.2))) =
      membersBytes fields := by
  cases fields with
  | nil => rfl
  | cons field fields =>
    rw [List.map_cons, utf8_intercalate_cons, List.flatMap_map]
    simp only [utf8_writeMember, membersBytes]

theorem length_le_membersBytes (fields : List (String × Value)) :
    fields.length ≤ (membersBytes fields).length := by
  cases fields with
  | nil => simp
  | cons field fields =>
    have count : fields.length ≤
        (fields.flatMap fun field => 0x2C :: 0x22 :: fieldBytes field).length := by
      induction fields with
      | nil => simp
      | cons field fields ih =>
        rw [List.flatMap_cons]
        simp only [List.length_cons, List.length_append]
        omega
    simp only [membersBytes, List.length_cons, List.length_append]
    omega

theorem reads_fields {fields fields' : List (String × Value)} (as : FieldsReadAs fields fields')
    {fuel : Nat} (enough : fields.length < fuel) (rest : Bytes) :
    Reads (readFields fuel true) (membersBytes fields) (0x7D :: rest) fields' := by
  obtain ⟨fuel, rfl⟩ : ∃ n, fuel = n + 1 := ⟨fuel - 1, by omega⟩
  cases as with
  | nil => exact fun _ _ => ⟨_, _, rfl⟩
  | @cons field field' fields fields' as more =>
    have read := reads_field as.2 (reads_moreFields more (Nat.lt_of_succ_lt_succ enough) rest)
    rw [← as.1] at read
    exact (reads_nextKey_first _).bind read

theorem encode_toJson (record : Record) :
    Utf8.encode record.toJson = [0x7B] ++ (membersBytes record.entries ++ [0x7D]) := by
  rw [toJson, encode_writeObject, utf8_intercalate]

theorem reads_record {record : Record} {fields : List (String × Value)}
    (as : FieldsReadAs record.entries fields) (rest : Bytes) :
    Reads reader (Utf8.encode record.toJson) rest fields := by
  rw [encode_toJson]
  apply Reads.first (by decide)
  rw [if_pos (by decide)]
  refine (reads_advance _ _).bind (Reads.braced fun line column => ?_)
  have enough : record.entries.length <
      (membersBytes record.entries ++ 0x7D :: rest).length + 1 := by
    have := length_le_membersBytes record.entries
    rw [List.length_append]
    omega
  exact reads_fields as enough rest line column

theorem document_toJson {record : Record} (whole : record.FloatFree) :
    document reader (Utf8.encode record.toJson) = .ok record.entries := by
  have as : FieldsReadAs record.entries record.entries :=
    List.forall₂_same.2 fun field mem => ⟨rfl, readAs_self (whole field mem)⟩
  obtain ⟨line, column, eq⟩ := reads_record as [] 1 0
  rw [List.append_nil] at eq
  exact document_of_reader eq

end Record

/-- Records that a format keeps. JSON has no place for floats that are not finite, and may
round others as it reads them; the packed form counts with 64 bits. -/
def RecordFormat.Keeps : RecordFormat → Record → Prop
  | .json, record => record.FloatFree
  | .packed, record => record.pack.length < Record.lengthBound

theorem RecordFormat.decode_encode {format : RecordFormat} {record : Record}
    (keeps : format.Keeps record) : format.decode (format.encode record) = .ok record := by
  apply decode_of_fields
  cases format with
  | json => exact mapError_eq_ok.2 (Record.document_toJson keeps)
  | packed => exact mapError_eq_ok.2 (Record.unpack_pack keeps)

theorem RecordFormat.unreadable_of_ne_ok {format : RecordFormat} {bytes : Bytes}
    (refused : ∀ fields, format.fields bytes ≠ .ok fields) :
    ∃ reason, format.decode bytes = .error (.unreadable reason) := by
  have unread : ∃ reason, format.fields bytes = .error (.unreadable reason) := by
    cases format with
    | json =>
      obtain ⟨failure, eq⟩ := mapError_of_ne_ok refused
      exact ⟨failure.message, eq⟩
    | packed =>
      obtain ⟨failure, eq⟩ := mapError_of_ne_ok refused
      exact ⟨failure.message, eq⟩
  obtain ⟨reason, eq⟩ := unread
  exact ⟨reason, by rw [decode, eq]; rfl⟩

end TreeStore
