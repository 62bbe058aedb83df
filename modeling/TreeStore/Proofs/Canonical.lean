import TreeStore.Proofs.Written
/-!
Records are canonical: their names stand in the order of their bytes, and a record holds the last value
that each name was given, by the steps that built it or by the document it was read from. So its
written form does not tell in which order the fields were set (`records_are_canonical`).
-/
namespace TreeStore

namespace Text.Utf8

def Before : Bytes → Bytes → Prop := List.Lex (· < ·)

theorem before_of_lt {a b : Nat} (byte : b < 256) (less : a < b) (s t : Bytes) :
    Before (UInt8.ofNat a :: s) (UInt8.ofNat b :: t) := by
  refine .rel ?_
  rw [UInt8.lt_iff_toNat_lt, UInt8.toNat_ofNat_of_lt' byte,
    UInt8.toNat_ofNat_of_lt' (Nat.lt_trans less byte)]
  exact less

theorem before_of_le {a b : Nat} {s t : Bytes} (byte : b < 256) (ordered : a ≤ b)
    (behind : a = b → Before s t) : Before (UInt8.ofNat a :: s) (UInt8.ofNat b :: t) := by
  rcases Nat.lt_or_eq_of_le ordered with less | rfl
  · exact before_of_lt byte less s t
  · exact .cons (behind rfl)

theorem before_continuation {m n : Nat} (less : m % 64 < n % 64) (s t : Bytes) :
    Before (UInt8.ofNat (m % 64 + 128) :: s) (UInt8.ofNat (n % 64 + 128) :: t) :=
  before_of_lt (by omega) (by omega) s t

theorem before_two_continuations {m n : Nat} (less : m % 4096 < n % 4096) (s t : Bytes) :
    Before (UInt8.ofNat (m / 64 % 64 + 128) :: UInt8.ofNat (m % 64 + 128) :: s)
      (UInt8.ofNat (n / 64 % 64 + 128) :: UInt8.ofNat (n % 64 + 128) :: t) :=
  before_of_le (by omega) (by omega) fun same => before_continuation (by omega) s t

theorem before_three_continuations {m n : Nat} (less : m % 262144 < n % 262144) (s t : Bytes) :
    Before
      (UInt8.ofNat (m / 4096 % 64 + 128) :: UInt8.ofNat (m / 64 % 64 + 128) ::
        UInt8.ofNat (m % 64 + 128) :: s)
      (UInt8.ofNat (n / 4096 % 64 + 128) :: UInt8.ofNat (n / 64 % 64 + 128) ::
        UInt8.ofNat (n % 64 + 128) :: t) :=
  before_of_le (by omega) (by omega) fun same => before_two_continuations (by omega) s t

/-- Characters are written in their order: a longer form has a higher first byte, and forms of one
length are in the order of what they hold. -/
theorem before_encodeChar {c d : Char} (less : c.toNat < d.toNat) (s t : Bytes) :
    Before (String.utf8EncodeChar c ++ s) (String.utf8EncodeChar d ++ t) := by
  have valid : d.toNat < 0xD800 ∨ 0xDFFF < d.toNat ∧ d.toNat < 0x110000 := d.valid
  rw [String.utf8EncodeChar, String.utf8EncodeChar, show c.val.toNat = c.toNat from rfl,
    show d.val.toNat = d.toNat from rfl]
  generalize c.toNat = m at *
  generalize d.toNat = n at *
  split
  case isTrue one =>
    split
    · exact before_of_lt (by omega) less s t
    split
    · exact before_of_lt (by omega) (by omega) ..
    split
    · exact before_of_lt (by omega) (by omega) ..
    · exact before_of_lt (by omega) (by omega) ..
  rw [if_neg (by omega : ¬ n ≤ 127)]
  split
  case isTrue two =>
    split
    · exact before_of_le (by omega) (by omega) fun same => before_continuation (by omega) s t
    split
    · exact before_of_lt (by omega) (by omega) ..
    · exact before_of_lt (by omega) (by omega) ..
  rw [if_neg (by omega : ¬ n ≤ 2047)]
  split
  case isTrue three =>
    split
    · exact before_of_le (by omega) (by omega) fun same => before_two_continuations (by omega) s t
    · exact before_of_lt (by omega) (by omega) ..
  rw [if_neg (by omega : ¬ n ≤ 65535)]
  exact before_of_le (by omega) (by omega) fun same => before_three_continuations (by omega) s t

theorem before_append {s t : Bytes} (front : Bytes) (less : Before s t) :
    Before (front ++ s) (front ++ t) := by
  induction front with
  | nil => exact less
  | cons b front ih => exact .cons ih

theorem before_flatMap {chars chars' : List Char} (less : List.Lex (· < ·) chars chars') :
    Before (chars.flatMap String.utf8EncodeChar) (chars'.flatMap String.utf8EncodeChar) := by
  induction less with
  | @nil c chars =>
    have some : String.utf8EncodeChar c ≠ [] := by
      intro nothing
      have length := String.length_utf8EncodeChar c
      rw [nothing] at length
      exact absurd c.utf8Size_pos (by simp [← length])
    obtain ⟨b, more, eq⟩ := List.exists_cons_of_ne_nil some
    rw [List.flatMap_cons, eq]
    exact .nil
  | rel less => exact before_encodeChar less _ _
  | cons _ ih => exact before_append _ ih

end Text.Utf8

namespace Record

open Text

/-- The names of a record stand in the order of their bytes, each of them once. They are as many as the
record counts, and those that it has a value for. -/
structure Canonical (record : Record) : Prop where
  increasing : record.keys.Pairwise fun name later => Utf8.Before (Utf8.encode name) (Utf8.encode later)
  distinct : record.keys.Nodup
  counted : record.size = record.keys.length
  held : ∀ name, name ∈ record.keys ↔ (record.find? name).isSome

theorem before_of_compare {name later : String} (less : compare name later = .lt) :
    Utf8.Before (Utf8.encode name) (Utf8.encode later) :=
  Utf8.before_flatMap (compareOfLessAndEq_eq_lt.1 less)

theorem canonical (record : Record) : record.Canonical where
  increasing := List.pairwise_map.2 (record.sorted.imp before_of_compare)
  distinct := by
    refine List.pairwise_map.2 (record.sorted.imp fun {field later} less same => ?_)
    rw [same] at less
    simp [Std.ReflCmp.compare_self] at less
  counted := (List.length_map _).symm
  held name := by
    rw [Option.isSome_iff_exists, SortedMap.keys, List.mem_map]
    constructor
    · rintro ⟨⟨_, value⟩, mem, rfl⟩
      exact ⟨value, record.find?_eq_some_iff.2 mem⟩
    · rintro ⟨value, found⟩
      exact ⟨(name, value), record.find?_eq_some_iff.1 found, rfl⟩

def setAll (record : Record) (fields : List (String × Value)) : Record :=
  fields.foldl (fun record field => record.insert field.1 field.2) record

def lastValue (name : String) (fields : List (String × Value)) : Option Value :=
  (fields.reverse.find? fun field => field.1 = name).map Prod.snd

theorem lastValue_cons (name : String) (field : String × Value) (fields : List (String × Value)) :
    lastValue name (field :: fields) =
      (lastValue name fields).or (if name = field.1 then some field.2 else none) := by
  unfold lastValue
  rw [List.reverse_cons, List.find?_append, Option.map_or, List.find?_singleton]
  congr 1
  by_cases same : name = field.1
  · simp [same]
  · simp [same, Ne.symm same]

theorem or_find?_insert (name : String) (field : String × Value) (fields : List (String × Value))
    (record : Record) :
    (lastValue name fields).or ((record.insert field.1 field.2).find? name) =
      (lastValue name (field :: fields)).or (record.find? name) := by
  rw [SortedMap.find?_insert, lastValue_cons, Option.or_assoc]
  split <;> rfl

theorem find?_setAll (fields : List (String × Value)) (record : Record) (name : String) :
    (record.setAll fields).find? name = (lastValue name fields).or (record.find? name) := by
  induction fields generalizing record with
  | nil => rfl
  | cons field fields ih => exact (ih _).trans (or_find?_insert name field fields record)

theorem find?_ofFields (fields : List (String × Value)) (name : String) :
    (ofFields fields).find? name = lastValue name fields :=
  (find?_setAll fields .empty name).trans Option.or_none

/-- In which order fields were set is not seen in a record. -/
theorem ofFields_eq_of_lastValue {fields fields' : List (String × Value)}
    (same : ∀ name, lastValue name fields = lastValue name fields') :
    ofFields fields = ofFields fields' :=
  SortedMap.ext_find? fun name => by rw [find?_ofFields, find?_ofFields, same]

/-- A step that sets a field. An `insert` answers the value that it replaces; in a chain of `also` no
one asks for it. -/
inductive Step where
  | insert (name : String) (value : Value)
  | also (name : String) (value : Value)
deriving DecidableEq, Repr

namespace Step

def field : Step → String × Value
  | .insert name value | .also name value => (name, value)

def answer (replaced : Option Value) : Step → Option (Option Value)
  | .insert .. => some replaced
  | .also .. => none

end Step

def build : List Step → Record → List (Option (Option Value)) × Record
  | [], record => ([], record)
  | step :: steps, record =>
    let (replaced, record) := record.put step.field.1 step.field.2
    let (answers, record) := build steps record
    (step.answer replaced :: answers, record)

theorem build_snd (steps : List Step) (record : Record) :
    (build steps record).2 = record.setAll (steps.map Step.field) := by
  induction steps generalizing record with
  | nil => rfl
  | cons step steps ih => exact ih _

theorem answer_build (before after : List Step) (step : Step) (record : Record) :
    (build (before ++ step :: after) record).1[before.length]? =
      some (step.answer ((lastValue step.field.1 (before.map Step.field)).or
        (record.find? step.field.1))) := by
  induction before generalizing record with
  | nil => rfl
  | cons first before ih =>
    refine (ih _).trans ?_
    rw [List.map_cons, ← or_find?_insert]

theorem length_build (steps : List Step) (record : Record) :
    (build steps record).1.length = steps.length := by
  induction steps generalizing record with
  | nil => rfl
  | cons step steps ih => exact congrArg Nat.succ (ih _)

end Record

/-- Records are canonical, whether steps have built them or a format has read them. They hold the last
value of every name, an insert answers the one before it, and steps that end with the same values are
written in the same bytes. -/
theorem records_are_canonical :
    (∀ steps : List Record.Step,
      let built := Record.build steps .empty
      built.2.Canonical ∧
        (∀ name, built.2.find? name = Record.lastValue name (steps.map Record.Step.field)) ∧
        built.1.length = steps.length ∧
        ∀ before step after, steps = before ++ step :: after → built.1[before.length]? =
          some (step.answer (Record.lastValue step.field.1 (before.map Record.Step.field)))) ∧
    (∀ (format : RecordFormat) (bytes : Bytes) (record : Record),
      format.decode bytes = .ok record → record.Canonical ∧
        ∃ fields, format.fields bytes = .ok fields ∧
          ∀ name, record.find? name = Record.lastValue name fields) ∧
    ∀ steps steps' : List Record.Step,
      (∀ name, Record.lastValue name (steps.map Record.Step.field) =
        Record.lastValue name (steps'.map Record.Step.field)) →
      ∀ format : RecordFormat, format.encode (Record.build steps .empty).2 =
        format.encode (Record.build steps' .empty).2 := by
  have built : ∀ steps, (Record.build steps .empty).2 = .ofFields (steps.map Record.Step.field) :=
    fun steps => Record.build_snd steps .empty
  refine ⟨fun steps => ⟨Record.canonical _, fun name => ?_, Record.length_build steps _, ?_⟩,
    fun format bytes record read => ⟨record.canonical, ?_⟩, fun steps steps' same format => ?_⟩
  · rw [built, Record.find?_ofFields]
  · rintro before step after rfl
    have answered := Record.answer_build before after step .empty
    rwa [SortedMap.find?_empty, Option.or_none] at answered
  · obtain ⟨fields, listed, rfl⟩ := ok_of_map read
    exact ⟨fields, listed, Record.find?_ofFields fields⟩
  · rw [built, built, Record.ofFields_eq_of_lastValue same]

/-- The other steps leave out what is set again, and take the names the other way round. The document
has a name twice, and not in order. -/
theorem reordered_steps_are_written_alike :
    let steps : List Record.Step :=
      [.insert "é" (.int 1), .also "z" (.bool true), .insert "é" (.text "x")]
    let steps' : List Record.Step := [.also "é" (.text "x"), .also "z" (.bool true)]
    let document := "\x7b\"é\":\x7b\"int\":1\x7d,\"z\":\x7b\"int\":2\x7d,\"é\":\x7b\"int\":3\x7d\x7d"
    let read := Record.ofFields [("z", .int 2), ("é", .int 3)]
    (∀ format : RecordFormat, format.encode (Record.build steps .empty).2 =
      format.encode (Record.build steps' .empty).2) ∧
      (Record.build steps .empty).1[2]? = some (some (some (.int 1))) ∧
      RecordFormat.json.decode (Text.Utf8.encode document) = .ok read ∧ read.Canonical := by
  intro steps steps' document read
  obtain ⟨built, decoded, written⟩ := records_are_canonical
  have same : ∀ name, Record.lastValue name (steps.map Record.Step.field) =
      Record.lastValue name (steps'.map Record.Step.field) := by
    intro name
    simp only [steps, steps', List.map_cons, List.map_nil, Record.lastValue_cons]
    by_cases first : name = "é"
    · simp [first, Record.Step.field, Record.lastValue]
    · simp [first, Record.Step.field, Record.lastValue]
  have answered := (built steps).2.2.2 [steps[0], steps[1]] steps[2] [] rfl
  have found : RecordFormat.json.decode (Text.Utf8.encode document) = .ok read := by decide +kernel
  exact ⟨written steps steps' same, answered, found, (decoded .json _ read found).1⟩

end TreeStore
