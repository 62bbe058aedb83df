import TreeStore.Proofs.Floats
/-!
Records that come back from JSON. Everything but the floats is read as it was written; a float may
be read as another one, or refused, and then so is the record (`RecordFormat.toOption_decode_json`).
-/
namespace TreeStore

open Json Text

def Value.reread? : Value → Option Value
  | .float bits => .float <$> Json.reread? bits
  | value => some value

theorem Value.reread?_eq_self {value : Value} : value.reread? = some value ↔
    ∀ bits, value = .float bits → Json.reread? bits = some bits := by
  cases value with
  | float bits =>
    constructor
    · intro back bits' eq
      cases eq
      obtain ⟨_, double, eq⟩ := Option.map_eq_some_iff.1 back
      cases eq
      exact double
    · intro back
      exact Option.map_eq_some_iff.2 ⟨bits, back bits rfl, rfl⟩
  | _ => exact ⟨fun _ _ eq => (nomatch eq), fun _ => rfl⟩

namespace Json

theorem refuses_tagged {α β : Type} {kinds : List (String × α)} {payload bare : α → Reader β}
    {name : String} {kind : α} {chars : List Char} (known : kinds.lookup name = some kind)
    (refuses : Refuses (payload kind) (utf8 chars ++ [0x7D])) :
    Refuses (expectTagged kinds payload bare) (utf8 (writeObject [writeMember name chars])) := by
  rw [utf8_tagged]
  refine .after [] (fun tail => reads_firstByte (by decide) _) ?_
  rw [if_pos (by decide)]
  refine .after _ (fun tail => reads_openTag _) (.after _ (fun tail => reads_knownName known _) ?_)
  exact .after _ (fun tail => reads_colon _) (refuses.bind _)

end Json

namespace Record

theorem readAs_of_reread? {value value' : Value} (back : value.reread? = some value') :
    ReadAs value value' := by
  cases value with
  | float bits =>
    obtain ⟨bits', double, rfl⟩ := Option.map_eq_some_iff.1 back
    have known : Kind.names.lookup "float" = some .float := rfl
    exact reads_tagged known fun rest => (reads_float double rest).map Value.float
  | _ =>
    cases back
    exact readAs_self fun _ eq => nomatch eq

theorem refuses_value {value : Value} (lost : value.reread? = none) :
    Refuses readValue (utf8 (writeValue value)) := by
  cases value with
  | float bits =>
    have known : Kind.names.lookup "float" = some .float := rfl
    exact refuses_tagged known ((refuses_float (Option.map_eq_none_iff.1 lost)).map Value.float)
  | _ => cases lost

theorem refuses_field {field : String × Value} {fuel : Nat} {more : Bytes}
    (lost : ∀ value, field.2.reread? = some value → Refuses (readFields fuel false) more) :
    Refuses (do
        let name ← text
        colon
        let value ← readValue
        ((name, value) :: ·) <$> readFields fuel false) (fieldBytes field ++ more) := by
  unfold fieldBytes
  simp only [List.append_assoc]
  refine .after _ (fun tail => reads_text field.1 _) (.after _ (fun tail => reads_colon _) ?_)
  cases back : field.2.reread? with
  | none => exact ((refuses_value back).bind _).more more
  | some value => exact .after _ (fun tail => readAs_of_reread? back _) ((lost value back).map _)

theorem lost_of_cons {field : String × Value} {fields : List (String × Value)} {value : Value}
    (lost : ∃ other ∈ field :: fields, other.2.reread? = none)
    (back : field.2.reread? = some value) : ∃ other ∈ fields, other.2.reread? = none := by
  obtain ⟨other, mem, lost⟩ := lost
  rcases List.mem_cons.1 mem with rfl | mem
  · rw [back] at lost
    cases lost
  · exact ⟨other, mem, lost⟩

theorem refuses_moreFields {fields : List (String × Value)}
    (lost : ∃ field ∈ fields, field.2.reread? = none) {fuel : Nat}
    (enough : fields.length < fuel) : Refuses (readFields fuel false)
      (fields.flatMap fun field => 0x2C :: 0x22 :: fieldBytes field) := by
  induction fields generalizing fuel with
  | nil => simp at lost
  | cons field fields ih =>
    cases fuel with
    | zero => exact absurd enough (Nat.not_lt_zero _)
    | succ fuel =>
      refine .after [0x2C, 0x22] (fun tail => reads_nextKey_more _) ?_
      exact refuses_field fun value back =>
        ih (lost_of_cons lost back) (Nat.lt_of_succ_lt_succ enough)

theorem refuses_fields {fields : List (String × Value)}
    (lost : ∃ field ∈ fields, field.2.reread? = none) {fuel : Nat}
    (enough : fields.length < fuel) : Refuses (readFields fuel true) (membersBytes fields) := by
  obtain ⟨fuel, rfl⟩ : ∃ n, fuel = n + 1 := ⟨fuel - 1, by omega⟩
  cases fields with
  | nil => simp at lost
  | cons field fields =>
    refine .after [0x22] (fun tail => reads_nextKey_first _) ?_
    exact refuses_field fun value back =>
      refuses_moreFields (lost_of_cons lost back) (Nat.lt_of_succ_lt_succ enough)

theorem refuses_record {record : Record} (lost : ∃ field ∈ record.entries, field.2.reread? = none) :
    Refuses reader (Text.Utf8.encode record.toJson) := by
  rw [encode_toJson]
  refine .after [] (fun tail => reads_firstByte (by decide) _) ?_
  rw [if_pos (by decide)]
  refine .after [0x7B] (fun tail => reads_advance _ _) fun tail line column result c ok => ?_
  obtain ⟨result, middle, read, -⟩ := bind_eq_ok.1 (enclosed_eq_ok.1 ok)
  have enough : record.entries.length <
      (membersBytes record.entries ++ [0x7D] ++ tail).length + 1 := by
    have := length_le_membersBytes record.entries
    simp only [List.length_append]
    omega
  exact (refuses_fields lost enough).more [0x7D] tail line column result middle read

def reread (record : Record) : Record where
  entries := record.entries.map fun field => (field.1, field.2.reread?.getD field.2)
  sorted := List.pairwise_map.2 record.sorted

/-- What is read where a record has been written. -/
def reread? (record : Record) : Option Record :=
  if ∀ field ∈ record.entries, field.2.reread?.isSome then some record.reread else none

theorem reader_of_reread? {record result : Record} (back : record.reread? = some result) :
    ∃ line column, reader (.start (Text.Utf8.encode record.toJson)) =
      .ok (result.entries, ⟨[], line, column⟩) := by
  unfold reread? at back
  split at back
  case isFalse => cases back
  case isTrue whole =>
    obtain rfl := Option.some.inj back
    have as : FieldsReadAs record.entries record.reread.entries := by
      refine List.forall₂_map_right_iff.2 (List.forall₂_same.2 fun field mem => ⟨rfl, ?_⟩)
      obtain ⟨value, back⟩ := Option.isSome_iff_exists.1 (whole field mem)
      rw [back]
      exact readAs_of_reread? back
    obtain ⟨line, column, eq⟩ := reads_record as [] 1 0
    rw [List.append_nil] at eq
    exact ⟨line, column, eq⟩

theorem reread?_eq_none {record : Record} :
    record.reread? = none ↔ ∃ field ∈ record.entries, field.2.reread? = none := by
  simp [reread?]

theorem reader_of_lost {record : Record} (lost : record.reread? = none)
    {fields : List (String × Value)} {c : Cursor} :
    reader (.start (Text.Utf8.encode record.toJson)) ≠ .ok (fields, c) := by
  have refused := refuses_record (reread?_eq_none.1 lost) [] 1 0 fields c
  rwa [List.append_nil] at refused

def Survives (record : Record) : Prop :=
  ∀ field ∈ record.entries, ∀ bits, field.2 = .float bits → Json.reread? bits = some bits

theorem reread?_eq_self {record : Record} : record.reread? = some record ↔ record.Survives := by
  have each : record.Survives ↔ ∀ field ∈ record.entries, field.2.reread? = some field.2 :=
    forall₂_congr fun field _ => Value.reread?_eq_self.symm
  rw [each, reread?]
  constructor
  · intro back field mem
    split at back
    case isFalse => cases back
    case isTrue whole =>
      have entries : record.entries.map _ = record.entries.map id :=
        (congrArg SortedMap.entries (Option.some.inj back)).trans (List.map_id _).symm
      have same := congrArg Prod.snd (List.map_inj_left.1 entries field mem)
      obtain ⟨value, found⟩ := Option.isSome_iff_exists.1 (whole field mem)
      rw [found] at same ⊢
      exact congrArg some same
  · intro back
    rw [if_pos fun field mem => by rw [back field mem]; rfl]
    have entries : record.reread.entries = record.entries := by
      refine (List.map_congr_left fun field mem => ?_).trans (List.map_id _)
      rw [back field mem]
      rfl
    rw [← SortedMap.ofList_entries record.reread, entries, SortedMap.ofList_entries]

theorem FloatFree.survives {record : Record} (whole : record.FloatFree) : record.Survives :=
  fun field mem bits eq => absurd eq (whole field mem bits)

theorem reread?_of_wild {record : Record} {field : String × Value} {bits : UInt64}
    (mem : field ∈ record.entries) (float : field.2 = .float bits)
    (wild : Binary64.isFinite bits = false) : record.reread? = none := by
  refine reread?_eq_none.2 ⟨field, mem, ?_⟩
  rw [float, Value.reread?, Json.reread?_of_not_finite wild]
  rfl

end Record

theorem RecordFormat.toOption_decode_json (record : Record) :
    (RecordFormat.json.decode (RecordFormat.json.encode record)).toOption = record.reread? := by
  cases back : record.reread? with
  | some result =>
    obtain ⟨line, column, eq⟩ := Record.reader_of_reread? back
    have listed : RecordFormat.json.fields (RecordFormat.json.encode record) = .ok result.entries :=
      mapError_eq_ok.2 (Json.document_of_reader eq)
    rw [decode_of_fields listed]
    rfl
  | none =>
    cases read : RecordFormat.json.decode (RecordFormat.json.encode record) with
    | error => rfl
    | ok result =>
      obtain ⟨fields, listed, -⟩ := ok_of_map read
      obtain ⟨c, eq⟩ := Json.reader_of_document (mapError_eq_ok.1 listed)
      exact absurd eq (Record.reader_of_lost back)

/-- JSON keeps every record without floats, whatever its texts and integers are. It has a written form
for a record with a float that is infinite or not a number as well, but that one is unreadable. -/
theorem json_keeps_all_but_wild_floats (record : Record) :
    (record.FloatFree → RecordFormat.json.decode (RecordFormat.json.encode record) = .ok record) ∧
      ((∃ field ∈ record.entries, ∃ bits, field.2 = .float bits ∧
          Binary64.isFinite bits = false) →
        ∃ reason, RecordFormat.json.decode (RecordFormat.json.encode record) =
          .error (.unreadable reason)) := by
  have back := RecordFormat.toOption_decode_json record
  constructor
  · intro whole
    rw [Record.reread?_eq_self.2 whole.survives] at back
    exact toOption_eq_some.1 back
  · rintro ⟨field, mem, bits, float, wild⟩
    rw [Record.reread?_of_wild mem float wild] at back
    refine RecordFormat.unreadable_of_ne_ok fun fields listed => ?_
    rw [RecordFormat.decode, listed] at back
    cases back

theorem json_keeps_texts_and_refuses_nan :
    let kept := Record.ofFields [("\"\\\n\x00", .text "\x1f\t/\"\\𝄞é\x7f"), ("", .bool false),
      ("least", .int (-9223372036854775808)), ("most", .int 9223372036854775807)]
    let lost := Record.ofFields [("a", .float 0x3FD0000000000000), ("b", .float 0x7FF8000000000001),
      ("c", .text "")]
    kept.FloatFree ∧ RecordFormat.json.decode (RecordFormat.json.encode kept) = .ok kept ∧
      ∃ reason, RecordFormat.json.decode (RecordFormat.json.encode lost) =
        .error (.unreadable reason) := by
  intro kept lost
  have kept_entries : kept.entries = [("", .bool false), ("\"\\\n\x00", .text "\x1f\t/\"\\𝄞é\x7f"),
      ("least", .int (-9223372036854775808)), ("most", .int 9223372036854775807)] := by
    decide +kernel
  have whole : kept.FloatFree := by
    rw [Record.FloatFree, kept_entries]
    simp
  have nan : ("b", .float 0x7FF8000000000001) ∈ lost.entries := by decide +kernel
  have wild : Binary64.isFinite 0x7FF8000000000001 = false := by decide
  exact ⟨whole, (json_keeps_all_but_wild_floats kept).1 whole,
    (json_keeps_all_but_wild_floats lost).2 ⟨_, nan, _, rfl, wild⟩⟩

end TreeStore
