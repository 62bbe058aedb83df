import Mathlib.Data.List.TakeWhile
import TreeStore.Proofs.Written
/-!
How far a reader of JSON looks. Of what follows the bytes that it takes it sees the first byte at
most, and where a byte of its own ends it, nothing at all; so a record that has been read would have
been read as well before any other bytes (`Record.reader_closed`).
-/
namespace TreeStore

namespace Json

variable {α β : Type}

/-- Of what follows the bytes that the reader takes, only the first byte matters. -/
def Settled (reader : Reader α) : Prop :=
  ∀ c a c', reader c = .ok (a, c') → ∃ front, c.rest = front ++ c'.rest ∧
    ∀ b tail, c'.rest = b :: tail → ∀ other, Reads reader front (b :: other) a

def Closed (reader : Reader α) : Prop :=
  ∀ c a c', reader c = .ok (a, c') → ∃ front, front ≠ [] ∧ c.rest = front ++ c'.rest ∧
    ∀ other, Reads reader front other a

def Fails (reader : Reader α) : Prop := ∀ c a c', reader c ≠ .ok (a, c')

theorem Closed.settled {reader : Reader α} (closed : Closed reader) : Settled reader := by
  intro c a c' ok
  obtain ⟨front, -, split, reads⟩ := closed c a c' ok
  exact ⟨front, split, fun b _ _ other => reads (b :: other)⟩

section Congr

variable {reader reader' : Reader α}
  (same : ∀ c result, reader c = .ok result ↔ reader' c = .ok result)

include same

theorem Reads.congr {front rest : Bytes} {a : α} (reads : Reads reader' front rest a) :
    Reads reader front rest a := by
  intro line column
  obtain ⟨line', column', eq⟩ := reads line column
  exact ⟨line', column', (same _ _).2 eq⟩

theorem Settled.congr (settled : Settled reader') : Settled reader := by
  intro c a c' ok
  obtain ⟨front, split, reads⟩ := settled c a c' ((same _ _).1 ok)
  exact ⟨front, split, fun b tail eq other => (reads b tail eq other).congr same⟩

theorem Closed.congr (closed : Closed reader') : Closed reader := by
  intro c a c' ok
  obtain ⟨front, some, split, reads⟩ := closed c a c' ((same _ _).1 ok)
  exact ⟨front, some, split, fun other => (reads other).congr same⟩

end Congr

theorem Closed.map {reader : Reader α} (f : α → β) (closed : Closed reader) :
    Closed (f <$> reader) := by
  intro c b c' ok
  rw [map_eq_pure_bind] at ok
  obtain ⟨a, middle, taken, ok⟩ := bind_eq_ok.1 ok
  cases ok
  obtain ⟨front, some, split, reads⟩ := closed c a c' taken
  exact ⟨front, some, split, fun other => (reads other).map f⟩

namespace Fails

theorem settled {reader : Reader α} (fails : Fails reader) : Settled reader :=
  fun c a c' ok => absurd ok (fails c a c')

theorem bind {first : Reader α} {next : α → Reader β} (fails : ∀ a, Fails (next a)) :
    Fails (first >>= next) := by
  intro c b c' ok
  obtain ⟨a, middle, -, ok⟩ := bind_eq_ok.1 ok
  exact fails a middle b c' ok

theorem here (cause : Cause) : Fails (failHere cause : Reader α) := fun _ _ _ eq => nomatch eq

theorem ahead (cause : Cause) : Fails (failAhead cause : Reader α) := fun _ _ _ eq => nomatch eq

theorem pending (cause : Cause) : Fails (failPending cause : Reader α) :=
  fun _ _ _ eq => nomatch eq

theorem mismatch (expected : String) (b : UInt8) : Fails (mismatch expected b : Reader α) :=
  Fails.bind fun _ => Fails.here _

end Fails

namespace Settled

theorem pure (a : α) : Settled (Pure.pure a : Reader α) := by
  intro c a' c' ok
  cases ok
  exact ⟨[], rfl, fun b _ _ other => Reads.pure a (b :: other)⟩

theorem bind {first : Reader α} {next : α → Reader β} (settled : Settled first)
    (rest : ∀ a, Settled (next a)) : Settled (first >>= next) := by
  intro c b c' ok
  obtain ⟨a, middle, taken, ok⟩ := bind_eq_ok.1 ok
  obtain ⟨front, split, reads⟩ := settled c a middle taken
  obtain ⟨front', split', reads'⟩ := rest a middle b c' ok
  refine ⟨front ++ front', by rw [split, split', List.append_assoc], fun x tail eq other => ?_⟩
  refine Reads.bind ?_ (reads' x tail eq other)
  rw [eq] at split'
  cases front' with
  | nil => exact reads x tail split' other
  | cons y front' => exact reads y _ split' _

theorem map {reader : Reader α} (f : α → β) (settled : Settled reader) :
    Settled (f <$> reader) := by
  rw [map_eq_pure_bind]
  exact settled.bind fun a => .pure (f a)

theorem closed {first : Reader α} {next : α → Reader β} (settled : Settled first)
    (rest : ∀ a, Closed (next a)) : Closed (first >>= next) := by
  intro c b c' ok
  obtain ⟨a, middle, taken, ok⟩ := bind_eq_ok.1 ok
  obtain ⟨front, split, reads⟩ := settled c a middle taken
  obtain ⟨front', some, split', reads'⟩ := rest a middle b c' ok
  refine ⟨front ++ front', by simp [some], by rw [split, split', List.append_assoc], ?_⟩
  intro other
  refine Reads.bind ?_ (reads' other)
  obtain ⟨x, more, rfl⟩ := List.exists_cons_of_ne_nil some
  exact reads x _ split' _

end Settled

theorem peek_settled : Settled peek := by
  intro c a c' ok
  cases ok
  refine ⟨[], rfl, fun b tail eq other line column => ⟨line, column, ?_⟩⟩
  rw [eq]
  rfl

theorem advance_settled : Settled advance := by
  intro c a c' ok
  cases ok
  obtain ⟨rest, line, column⟩ := c
  cases rest with
  | nil => exact ⟨[], rfl, fun _ _ eq => nomatch eq⟩
  | cons x rest =>
    refine ⟨[x], ?_, fun b _ _ other => reads_advance x (b :: other)⟩
    unfold Cursor.advance
    dsimp only
    split <;> rfl

theorem skipSpaceFrom_cons (line column : Nat) (x : UInt8) (bytes : Bytes) :
    Cursor.skipSpaceFrom line column (x :: bytes) =
      if x == 0x0A then Cursor.skipSpaceFrom (line + 1) 0 bytes
      else if isSpace x then Cursor.skipSpaceFrom line (column + 1) bytes
      else ⟨x :: bytes, line, column⟩ := rfl

theorem skipSpaceFrom_split (bytes : Bytes) (line column : Nat) :
    ∃ front, bytes = front ++ (Cursor.skipSpaceFrom line column bytes).rest ∧
      ∀ b tail, (Cursor.skipSpaceFrom line column bytes).rest = b :: tail →
        ∀ other line column, ∃ line' column', Cursor.skipSpaceFrom line column
          (front ++ b :: other) = ⟨b :: other, line', column'⟩ := by
  induction bytes generalizing line column with
  | nil => exact ⟨[], rfl, fun _ _ eq => nomatch eq⟩
  | cons x bytes ih =>
    rw [skipSpaceFrom_cons]
    split
    case isTrue newline =>
      obtain ⟨front, split, again⟩ := ih (line + 1) 0
      refine ⟨x :: front, by rw [List.cons_append, ← split], ?_⟩
      intro b tail eq other line _
      rw [List.cons_append, skipSpaceFrom_cons, if_pos newline]
      exact again b tail eq other (line + 1) 0
    case isFalse same_line =>
      split
      case isTrue space =>
        obtain ⟨front, split, again⟩ := ih line (column + 1)
        refine ⟨x :: front, by rw [List.cons_append, ← split], ?_⟩
        intro b tail eq other line column
        rw [List.cons_append, skipSpaceFrom_cons, if_neg same_line, if_pos space]
        exact again b tail eq other line (column + 1)
      case isFalse solid =>
        refine ⟨[], rfl, fun b tail eq other line column => ⟨line, column, ?_⟩⟩
        cases eq
        rw [List.nil_append, skipSpaceFrom_cons, if_neg same_line, if_neg solid]

theorem peekPastSpace_settled : Settled peekPastSpace := by
  intro c a c' ok
  cases ok
  obtain ⟨front, split, reads⟩ := skipSpaceFrom_split c.rest c.line c.column
  refine ⟨front, split, fun b tail eq other line column => ?_⟩
  obtain ⟨line', column', skipped⟩ := reads b tail eq other line column
  refine ⟨line', column', ?_⟩
  have head : c.skipSpace.rest.head? = some b := congrArg List.head? eq
  rw [head, peekPastSpace, Cursor.skipSpace, skipped]
  rfl

theorem digitRun_settled : Settled digitRun := by
  intro c a c' ok
  cases ok
  have all : ∀ d ∈ c.digits, isDigit d = true := fun d mem => List.mem_takeWhile_imp mem
  refine ⟨c.digits, List.takeWhile_append_dropWhile.symm, fun b tail eq other => ?_⟩
  refine reads_digitRun all fun b' more same => ?_
  obtain ⟨rfl, -⟩ := List.cons.inj same
  have head := List.head?_dropWhile_not isDigit c.rest
  rw [show c.rest.dropWhile isDigit = b :: tail from eq] at head
  simpa using head

theorem bareWord_settled (word : List UInt8) : Settled (bareWord word) := by
  induction word with
  | nil => exact .pure ()
  | cons expected more ih =>
    refine peek_settled.bind fun next => ?_
    cases next with
    | none => exact (Fails.here _).settled
    | some b =>
      refine advance_settled.bind fun _ => ?_
      split
      · exact ih
      · exact (Fails.here _).settled

theorem advance_rest {c : Cursor} {b : UInt8} {tail : Bytes} (eq : c.rest = b :: tail) :
    c.advance.rest = tail := by
  rw [Cursor.advance, eq]
  dsimp only
  split <;> rfl

def Demands (b : UInt8) (a : α) (reader : Reader α) : Prop :=
  ∃ next : Option UInt8 → Reader α, reader = (peekPastSpace >>= next) ∧
    (∀ c, next (some b) c = .ok (a, c.advance)) ∧ ∀ other, other ≠ some b → Fails (next other)

theorem Demands.closed {b : UInt8} {a : α} {reader : Reader α} (demands : Demands b a reader) :
    Closed reader := by
  obtain ⟨next, rfl, seen, others⟩ := demands
  intro c a' c' ok
  obtain ⟨found, middle, looked, ok⟩ := bind_eq_ok.1 ok
  obtain rfl : found = some b := by
    by_contra other
    exact others found other middle a' c' ok
  rw [seen] at ok
  cases ok
  obtain ⟨front, split, reads⟩ := peekPastSpace_settled c (some b) middle looked
  obtain ⟨head, rfl⟩ : c.skipSpace.rest.head? = some b ∧ c.skipSpace = middle := by
    simpa [peekPastSpace] using looked
  obtain ⟨tail, eq⟩ := List.head?_eq_some_iff.1 head
  refine ⟨front ++ [b], by simp, ?_, fun other => (reads b tail eq other).bind ?_⟩
  · rw [split, advance_rest eq, eq, List.append_assoc]
    rfl
  · intro line column
    obtain ⟨line', column', taken⟩ := reads_advance b other line column
    refine ⟨line', column', ?_⟩
    rw [seen]
    exact congrArg (fun answer => Except.ok (a, answer.2)) (Except.ok.inj taken)

def Scans (front bytes : Bytes) : Prop :=
  ∀ place other, ∃ stop, scan place (front ++ other) = .ok ⟨bytes, stop, other⟩

theorem scans_after (mark : Bytes) (skip : Nat) {f : Bytes → Bytes} {rest : Bytes} {s : Scanned}
    {place : Nat}
    (undone : ∀ place rest, scan place (mark ++ rest) =
      (fun s => { s with bytes := f s.bytes }) <$> scan (place + skip) rest)
    (others : ∀ s, scan place rest = .ok s →
      ∃ front, front ≠ [] ∧ rest = front ++ s.rest ∧ Scans front s.bytes)
    (ok : (fun s => { s with bytes := f s.bytes }) <$> scan place rest = .ok s) :
    ∃ front, front ≠ [] ∧ mark ++ rest = front ++ s.rest ∧ Scans front s.bytes := by
  cases scanned : scan place rest with
  | error fault => rw [scanned] at ok; cases ok
  | ok inner =>
    rw [scanned] at ok
    cases ok
    obtain ⟨front, some, split, scans⟩ := others inner scanned
    refine ⟨mark ++ front, by simp [some], by rw [List.append_assoc, ← split], ?_⟩
    intro place other
    obtain ⟨stop, eq⟩ := scans (place + skip) other
    refine ⟨stop, ?_⟩
    rw [List.append_assoc, undone, eq]
    rfl

theorem Scanned.prepend_eq (c : Char) : Scanned.prepend c =
    fun s => { s with bytes := String.utf8EncodeChar c ++ s.bytes } := rfl

theorem scan_split (place : Nat) (bytes : Bytes) (s : Scanned) (ok : scan place bytes = .ok s) :
    ∃ front, front ≠ [] ∧ bytes = front ++ s.rest ∧ Scans front s.bytes := by
  fun_induction scan place bytes generalizing s
  case case2 place b rest quote =>
    cases ok
    refine ⟨[b], by simp, rfl, fun place other => ⟨place + 1, ?_⟩⟩
    rw [scan.eq_def]
    simp [quote]
  case case6 place b quote mark e long h₁ h₂ h₃ h₄ rest code value low high ih =>
    refine scans_after [b, e, h₁, h₂, h₃, h₄] 6 (fun place rest => ?_) ih ok
    rw [scan.eq_def]
    simp [quote, mark, long, value, low, high, Scanned.prepend_eq]
  case case8 place b quote mark e long h₁ h₂ h₃ h₄ first value low high l₁ l₂ l₃ l₄ rest second
      value' low' char ih =>
    refine scans_after [b, e, h₁, h₂, h₃, h₄, 0x5C, 0x75, l₁, l₂, l₃, l₄] 12
      (fun place rest => ?_) ih ok
    rw [scan.eq_def]
    simp [quote, mark, long, value, low, high, value', low', Scanned.prepend_eq, char]
  case case12 place b quote mark e rest long char value ih =>
    refine scans_after [b, e] 2 (fun place rest => ?_) ih ok
    rw [scan.eq_def]
    simp [quote, mark, long, value, Scanned.prepend_eq]
  case case15 place b rest quote mark low ih =>
    refine scans_after [b] 1 (fun place rest => ?_) ih ok
    rw [scan.eq_def]
    simp [quote, mark, low]
  all_goals cases ok

theorem text_closed : Closed text := by
  intro c value c' ok
  unfold text at ok
  dsimp only at ok
  split at ok
  case h_1 => cases ok
  case h_2 s scanned =>
    split at ok
    case h_2 => cases ok
    case h_1 value decoded =>
      cases ok
      obtain ⟨front, some, split, scans⟩ := scan_split 0 c.rest s scanned
      refine ⟨front, some, split, fun other line column => ?_⟩
      obtain ⟨stop, eq⟩ := scans 0 other
      refine ⟨line, column + stop, ?_⟩
      unfold text
      dsimp only
      rw [eq]
      dsimp only
      rw [decoded]

theorem scaled_settled {negative : Bool} {significand : Nat} {exponent : Int} :
    Settled (scaled negative significand exponent) := by
  unfold scaled
  split
  · exact .pure _
  · exact (Fails.here _).settled

theorem exponentSign_settled : Settled exponentSign := by
  refine peek_settled.bind fun next => ?_
  split
  · exact advance_settled.bind fun _ => .pure _
  · exact advance_settled.bind fun _ => .pure _
  · exact .pure _

/-- Only where an exponent is too large does it matter that its digits are looked at together. -/
theorem exponentDigits_eq_ok {negative minus : Bool} {significand : Nat} {exponent : Int}
    {c : Cursor} {result : Number × Cursor} :
    exponentDigits negative minus significand exponent c = .ok result ↔
      (digitRun >>= fun run =>
        if (gather exponentBound 0 run).2 = run.length then
          scaled negative significand (if minus then exponent - (gather exponentBound 0 run).1
            else exponent + (gather exponentBound 0 run).1)
        else if significand ≠ 0 ∧ !minus then failHere .numberOutOfRange
        else pure (.float (Binary64.withSign negative 0)) : Reader Number) c = .ok result := by
  have taken : digitRun c = .ok (c.digits, c.skipDigits) := rfl
  rw [bind_of_ok taken]
  unfold exponentDigits
  dsimp only
  split
  · rfl
  split
  · exact ⟨fun eq => (nomatch eq), fun eq => (nomatch eq)⟩
  · rfl

theorem exponentDigits_settled {negative minus : Bool} {significand : Nat} {exponent : Int} :
    Settled (exponentDigits negative minus significand exponent) := by
  refine Settled.congr (fun _ _ => exponentDigits_eq_ok) (digitRun_settled.bind fun run => ?_)
  split
  · exact scaled_settled
  split
  · exact (Fails.here _).settled
  · exact .pure _

theorem exponentPart_settled {negative : Bool} {significand : Nat} {exponent : Int} :
    Settled (exponentPart negative significand exponent) := by
  refine exponentSign_settled.bind fun minus => peek_settled.bind fun next => ?_
  cases next with
  | none => exact (Fails.here _).settled
  | some b =>
    dsimp only
    split
    · exact exponentDigits_settled
    · exact (Fails.bind fun _ => Fails.here _).settled

theorem exponentOrEnd_settled {negative : Bool} {significand : Nat} {exponent : Int} :
    Settled (exponentOrEnd negative significand exponent) := by
  refine peek_settled.bind fun next => ?_
  split
  · exact advance_settled.bind fun _ => exponentPart_settled
  · exact scaled_settled

theorem fractionPart_settled {negative : Bool} {significand : Nat} {exponent : Int} :
    Settled (fractionPart negative significand exponent) := by
  refine digitRun_settled.bind fun run => ?_
  split
  · refine peek_settled.bind fun next => ?_
    cases next with
    | none => exact (Fails.ahead _).settled
    | some b => exact (Fails.ahead _).settled
  · exact exponentOrEnd_settled

theorem afterWhole_settled {negative : Bool} {significand dropped : Nat} :
    Settled (afterWhole negative significand dropped) := by
  refine peek_settled.bind fun next => ?_
  split
  · exact advance_settled.bind fun _ => fractionPart_settled
  split
  · exact advance_settled.bind fun _ => exponentPart_settled
  split
  · exact scaled_settled
  split
  · exact .pure _
  split
  · exact .pure _
  · exact .pure _

theorem unsignedNumber_settled (negative : Bool) : Settled (unsignedNumber negative) := by
  refine peek_settled.bind fun next => ?_
  split
  · exact (Fails.here _).settled
  · refine advance_settled.bind fun _ => peek_settled.bind fun next => ?_
    split
    · exact (Fails.ahead _).settled
    · exact afterWhole_settled
  · split
    · exact digitRun_settled.bind fun run => afterWhole_settled
    · exact (Fails.bind fun _ => Fails.here _).settled

theorem firstByte_settled : Settled firstByte := by
  refine peekPastSpace_settled.bind fun next => ?_
  cases next with
  | none => exact (Fails.ahead _).settled
  | some b => exact .pure b

theorem expectText_settled (expected : String) : Settled (expectText expected) := by
  refine firstByte_settled.bind fun b => ?_
  split
  · exact advance_settled.bind fun _ => text_closed.settled
  · exact (Fails.mismatch expected b).settled

theorem expectBool_settled : Settled expectBool := by
  refine firstByte_settled.bind fun b => ?_
  split
  · exact advance_settled.bind fun _ => (bareWord_settled _).bind fun _ => .pure _
  split
  · exact advance_settled.bind fun _ => (bareWord_settled _).bind fun _ => .pure _
  · exact (Fails.mismatch _ b).settled

theorem expectNumber_settled (expected : String) : Settled (expectNumber expected) := by
  refine firstByte_settled.bind fun b => ?_
  split
  · exact advance_settled.bind fun _ => unsignedNumber_settled true
  split
  · exact unsignedNumber_settled false
  · exact (Fails.mismatch expected b).settled

theorem expectInteger_settled (expected : String) (least most : Int) :
    Settled (expectInteger expected least most) := by
  refine (expectNumber_settled expected).bind fun number => ?_
  have bounded : ∀ n : Int, Settled (if least ≤ n ∧ n ≤ most then pure n
      else failHere (.outOfBounds n expected) : Reader Int) := by
    intro n
    split
    · exact .pure n
    · exact (Fails.here _).settled
  cases number with
  | natural n => exact bounded n
  | negative n => exact bounded n
  | float bits => exact (Fails.here _).settled

theorem expectFloat_settled : Settled expectFloat := by
  refine (expectNumber_settled _).bind fun number => ?_
  cases number with
  | natural n => exact .pure _
  | negative n => exact .pure _
  | float bits => exact .pure _

theorem colon_demands : Demands 0x3A () colon := by
  refine ⟨_, rfl, fun _ => rfl, fun other apart => ?_⟩
  split
  · exact absurd rfl apart
  · exact Fails.ahead _
  · exact Fails.ahead _

theorem closeObject_demands : Demands 0x7D () closeObject := by
  refine ⟨_, rfl, fun _ => rfl, fun other apart => ?_⟩
  split
  · exact absurd rfl apart
  · exact Fails.ahead _
  · exact Fails.ahead _
  · exact Fails.ahead _

theorem knownName_settled (kinds : List (String × α)) : Settled (knownName kinds) := by
  refine text_closed.settled.bind fun name => ?_
  split
  · exact .pure _
  · exact (Fails.here _).settled

theorem openTag_eq : ∃ quote : Reader Unit, openTag = (do advance; quote) ∧
    Demands 0x22 () quote := by
  refine ⟨_, rfl, _, rfl, fun _ => rfl, fun other apart => ?_⟩
  split
  · exact absurd rfl apart
  · exact Fails.ahead _
  · exact Fails.ahead _
  · exact Fails.ahead _

theorem openTag_settled : Settled openTag := by
  obtain ⟨quote, eq, demands⟩ := openTag_eq
  rw [eq]
  exact advance_settled.bind fun _ => demands.closed.settled

theorem expectTagged_eq {kinds : List (String × α)} {payload bare : α → Reader β}
    (none : ∀ kind, Fails (bare kind)) : ∃ next : UInt8 → Reader β,
      expectTagged kinds payload bare = (firstByte >>= next) ∧
        (∀ b, b ≠ 0x7B → Fails (next b)) ∧
        ∃ close : β → Reader β, (∀ value, Demands 0x7D value (close value)) ∧ next 0x7B = (do
          openTag
          let kind ← knownName kinds
          colon
          let value ← payload kind
          close value) := by
  refine ⟨_, rfl, fun b other => ?_, _, fun value => ⟨_, rfl, fun _ => rfl, fun other apart => ?_⟩, rfl⟩
  · rw [if_neg (by simpa using other)]
    split
    · exact Fails.bind fun _ => Fails.bind none
    · exact Fails.ahead _
  · split
    · exact absurd rfl apart
    · exact Fails.here _
    · exact Fails.here _

theorem expectTagged_closed (kinds : List (String × α)) {payload bare : α → Reader β}
    (inner : ∀ kind, Settled (payload kind)) (none : ∀ kind, Fails (bare kind)) :
    Closed (expectTagged kinds payload bare) := by
  obtain ⟨next, eq, others, close, demands, tagged⟩ := expectTagged_eq none
  rw [eq]
  refine firstByte_settled.closed fun b => ?_
  by_cases brace : b = 0x7B
  · rw [brace, tagged]
    refine openTag_settled.closed fun _ => (knownName_settled kinds).closed fun kind => ?_
    refine colon_demands.closed.settled.closed fun _ => (inner kind).closed fun value => ?_
    exact (demands value).closed
  · exact fun c a c' ok => absurd ok (others b brace c a c')

theorem nextKey_settled (first : Bool) : Settled (nextKey first) := by
  refine peekPastSpace_settled.bind fun next => ?_
  split
  · exact (Fails.ahead _).settled
  · exact .pure _
  split
  · split
    · exact advance_settled.bind fun _ => .pure _
    · exact (Fails.ahead _).settled
  split
  · refine advance_settled.bind fun _ => peekPastSpace_settled.bind fun next => ?_
    split
    · exact advance_settled.bind fun _ => .pure _
    · exact (Fails.ahead _).settled
    · exact (Fails.ahead _).settled
    · exact (Fails.ahead _).settled
  · exact (Fails.ahead _).settled

theorem Settled.shorter {reader : Reader α} (settled : Settled reader) {c c' : Cursor} {a : α}
    (ok : reader c = .ok (a, c')) : c'.rest.length ≤ c.rest.length := by
  obtain ⟨front, split, -⟩ := settled c a c' ok
  rw [split, List.length_append]
  exact Nat.le_add_left _ _

theorem shorter_of_nextKey {first : Bool} {c c' : Cursor} (ok : nextKey first c = .ok (true, c')) :
    c'.rest.length < c.rest.length := by
  obtain ⟨next, middle, looked, ok⟩ := bind_eq_ok.1 ok
  have shorter := peekPastSpace_settled.shorter looked
  have head : middle.rest.head? = next := by
    cases looked
    rfl
  split at ok
  case h_1 => cases ok
  case h_2 => cases ok
  case h_3 b _ =>
    obtain ⟨tail, eq⟩ := List.head?_eq_some_iff.1 head
    have advanced : middle.advance.rest.length < middle.rest.length := by
      rw [advance_rest eq, eq]
      exact Nat.lt_succ_self _
    split at ok
    · split at ok
      · obtain ⟨_, _, moved, ok⟩ := bind_eq_ok.1 ok
        cases moved
        cases ok
        omega
      · cases ok
    split at ok
    · obtain ⟨_, _, moved, ok⟩ := bind_eq_ok.1 ok
      cases moved
      obtain ⟨_, _, looked, ok⟩ := bind_eq_ok.1 ok
      have shorter' := peekPastSpace_settled.shorter looked
      split at ok
      case h_1 =>
        obtain ⟨_, _, moved, ok⟩ := bind_eq_ok.1 ok
        have shorter'' := advance_settled.shorter moved
        cases ok
        omega
      all_goals cases ok
    · cases ok

end Json

namespace Record

open Json

theorem readPayload_settled (kind : Kind) : Settled (readPayload kind) := by
  cases kind with
  | bool => exact expectBool_settled.map _
  | int => exact (expectInteger_settled _ _ _).map _
  | float => exact expectFloat_settled.map _
  | text => exact (expectText_settled _).map _

theorem readValue_closed : Closed readValue :=
  expectTagged_closed _ readPayload_settled fun _ => Fails.pending _

theorem readFields_settled (fuel : Nat) (first : Bool) : Settled (readFields fuel first) := by
  induction fuel generalizing first with
  | zero => exact .pure []
  | succ fuel ih =>
    refine (nextKey_settled first).bind fun more => ?_
    split
    · refine text_closed.settled.bind fun name => colon_demands.closed.settled.bind fun _ => ?_
      exact readValue_closed.settled.bind fun value => (ih false).map _
    · exact .pure []

/-- Any fuel that exceeds the number of bytes is as good as any other. -/
theorem readFields_fuel {fuel fuel' : Nat} {c : Cursor} (enough : c.rest.length < fuel)
    (enough' : c.rest.length < fuel') (first : Bool) :
    readFields fuel first c = readFields fuel' first c := by
  induction fuel generalizing fuel' c first with
  | zero => exact absurd enough (Nat.not_lt_zero _)
  | succ fuel ih =>
    obtain ⟨fuel', rfl⟩ : ∃ n, fuel' = n + 1 := ⟨fuel' - 1, by omega⟩
    refine bind_congr_of_ok fun more _ looked => ?_
    cases more with
    | false => rfl
    | true =>
      have key := shorter_of_nextKey looked
      refine bind_congr_of_ok fun name _ read => bind_congr_of_ok fun _ _ passed => ?_
      refine bind_congr_of_ok fun value _ found => ?_
      have name := text_closed.settled.shorter read
      have sign := colon_demands.closed.settled.shorter passed
      have value := readValue_closed.settled.shorter found
      exact map_congr_of_eq (ih (by omega) (by omega) false)

theorem fields_settled : Settled fun c => readFields (c.rest.length + 1) true c := by
  intro c fields c' ok
  -- The fuel for another rest is taken large enough for both.
  obtain ⟨front, split, -⟩ := readFields_settled _ true c fields c' ok
  refine ⟨front, split, fun b tail eq other line column => ?_⟩
  have ample : readFields (c.rest.length + (front ++ b :: other).length + 1) true c =
      .ok (fields, c') := by
    rw [← ok]
    exact readFields_fuel (by omega) (by omega) true
  obtain ⟨front', split', reads⟩ := readFields_settled _ true c fields c' ample
  obtain rfl : front' = front := List.append_cancel_right (split'.symm.trans split)
  obtain ⟨line', column', read⟩ := reads b tail eq other line column
  refine ⟨line', column', ?_⟩
  rw [← read]
  exact readFields_fuel (by dsimp only; omega) (by dsimp only; omega) true

theorem enclosed_eq_ok {α : Type} {items : Reader α} {close : Reader Unit}
    {leave : Cursor → Cursor} {c : Cursor} {result : α × Cursor} :
    enclosed items close leave c = .ok result ↔
      (do let value ← items; close; pure value : Reader α) c = .ok result := by
  rw [enclosed]
  cases eq : items c with
  | error failure => simp [bind_eq_ok, eq]
  | ok answer => rw [bind_of_ok eq]

theorem reader_closed : Closed reader := by
  refine firstByte_settled.closed fun b => ?_
  split
  · refine advance_settled.closed fun _ => Closed.congr (fun _ _ => enclosed_eq_ok) ?_
    refine fields_settled.closed fun fields => ?_
    exact closeObject_demands.closed.map fun _ => fields
  · exact fun c a c' ok => absurd ok (Fails.mismatch _ b c a c')

end Record

end TreeStore
