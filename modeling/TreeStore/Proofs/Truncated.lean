import TreeStore.Proofs.Reread
/-!
Records that have been cut short. A record in JSON ends with a byte of its own, and a packed one
counts what it holds, so no beginning of a written record can be read but the whole of it
(`RecordFormat.CutShort.unreadable`).
-/
namespace TreeStore

namespace Record

def Unpacker.Definite {α : Type} (reader : Unpacker α) : Prop :=
  ∀ bytes a rest, reader bytes = .ok (a, rest) →
    ∀ more, reader (bytes ++ more) = .ok (a, rest ++ more)

namespace Unpacker.Definite

variable {α β : Type}

theorem pure (a : α) : Definite (Pure.pure a) := by
  intro bytes a' rest ok more
  cases ok
  rfl

theorem throw (failure : PackedFailure) : Definite (MonadExcept.throw failure : Unpacker α) :=
  fun _ _ _ ok => nomatch ok

theorem bind {first : Unpacker α} {next : α → Unpacker β} (definite : Definite first)
    (others : ∀ a, Definite (next a)) : Definite (first >>= next) := by
  intro bytes b rest ok more
  obtain ⟨a, middle, taken, ok⟩ := bind_eq_ok.1 ok
  exact (bind_of_ok (definite bytes a middle taken more)).trans (others a middle b rest ok more)

theorem map {reader : Unpacker α} (f : α → β) (definite : Definite reader) :
    Definite (f <$> reader) := by
  rw [map_eq_pure_bind]
  exact definite.bind fun a => .pure (f a)

end Unpacker.Definite

open Unpacker

theorem append_of_splitFront? {n : Nat} {bytes front rest : Bytes}
    (split : splitFront? n bytes = some (front, rest)) :
    bytes = front ++ rest ∧ front.length = n := by
  induction n generalizing bytes front with
  | zero =>
    cases split
    exact ⟨rfl, rfl⟩
  | succ n ih =>
    cases bytes with
    | nil => cases split
    | cons b bytes =>
      obtain ⟨⟨front, rest⟩, inner, eq⟩ := Option.map_eq_some_iff.1 split
      cases eq
      obtain ⟨rfl, rfl⟩ := ih inner
      exact ⟨rfl, rfl⟩

theorem splitFront?_more {n : Nat} {bytes front rest : Bytes}
    (split : splitFront? n bytes = some (front, rest)) (more : Bytes) :
    splitFront? n (bytes ++ more) = some (front, rest ++ more) := by
  obtain ⟨rfl, rfl⟩ := append_of_splitFront? split
  rw [List.append_assoc, splitFront?_append]

theorem takeNumber_definite (width : Nat) : Definite (takeNumber width) := by
  intro bytes n rest ok more
  unfold takeNumber at ok ⊢
  split at ok
  case h_1 front _ split =>
    cases ok
    rw [splitFront?_more split more]
  case h_2 => cases ok

theorem takeText_definite : Definite takeText := by
  refine (takeNumber_definite 8).bind fun length bytes text rest ok more => ?_
  split at ok
  case h_1 => cases ok
  case h_2 front _ split =>
    rw [splitFront?_more split more]
    dsimp only
    split at ok
    · cases ok
      rfl
    · cases ok

theorem takeBool_definite : Definite takeBool := by
  refine (takeNumber_definite 1).bind fun n => ?_
  split
  · exact .pure false
  · exact .pure true
  · exact .throw _

theorem takeValue_definite : Definite takeValue := by
  refine (takeNumber_definite 4).bind fun kind => ?_
  split
  · exact takeBool_definite.map _
  · exact (takeNumber_definite 8).map _
  · exact (takeNumber_definite 8).map _
  · exact takeText_definite.map _
  · exact .throw _

theorem takeFields_definite (count : Nat) : Definite (takeFields count) := by
  induction count with
  | zero => exact .pure []
  | succ count ih =>
    exact takeText_definite.bind fun name => takeValue_definite.bind fun value => ih.map _

end Record

theorem Record.document_of_prefix {record : Record} {fields : List (String × Value)} {bytes : Bytes}
    (part : bytes <+: Text.Utf8.encode record.toJson) (ok : Json.document reader bytes = .ok fields) :
    bytes = Text.Utf8.encode record.toJson ∧ record.reread? = some (ofFields fields) := by
  obtain ⟨more, split⟩ := part
  obtain ⟨c, read⟩ := Json.reader_of_document ok
  obtain ⟨front, -, taken, reads⟩ := reader_closed _ _ _ read
  obtain ⟨_, _, again⟩ := reads (c.rest ++ more) 1 0
  have same : front ++ (c.rest ++ more) = Text.Utf8.encode record.toJson := by
    rw [← split, ← List.append_assoc, ← taken]
    rfl
  rw [same] at again
  cases back : record.reread? with
  | none => exact absurd again (reader_of_lost back)
  | some result =>
    obtain ⟨_, _, full⟩ := reader_of_reread? back
    rw [Json.Cursor.start, again] at full
    obtain ⟨rfl, rest⟩ := Prod.mk.inj (Except.ok.inj full)
    obtain ⟨-, rfl⟩ := List.append_eq_nil_iff.1 (congrArg Json.Cursor.rest rest)
    exact ⟨by rw [← split, List.append_nil], congrArg some (SortedMap.ofList_entries result).symm⟩

theorem Record.unpack_of_prefix {record : Record} {fields : List (String × Value)} {bytes : Bytes}
    (fit : record.LengthsFit) (part : bytes <+: record.pack) (ok : unpack bytes = .ok fields) :
    bytes = record.pack ∧ fields = record.entries := by
  obtain ⟨more, split⟩ := part
  obtain ⟨⟨fields, rest⟩, read, rfl⟩ := ok_of_map ok
  have definite : Unpacker.Definite (do takeFields (← takeNumber 8)) :=
    (takeNumber_definite 8).bind takeFields_definite
  have again := definite bytes fields rest read more
  have taken := takeFields_pack fit []
  rw [List.append_nil] at taken
  rw [split, taken] at again
  obtain ⟨rfl, left⟩ := Prod.mk.inj (Except.ok.inj again)
  obtain ⟨-, rfl⟩ := List.append_eq_nil_iff.1 left.symm
  exact ⟨by rw [← split, List.append_nil], rfl⟩

/-- A beginning of a written record that can be read is the whole of it. -/
theorem RecordFormat.decode_of_prefix {format : RecordFormat} {record record' : Record}
    {bytes : Bytes} (keeps : format.Keeps record) (part : bytes <+: format.encode record)
    (ok : format.decode bytes = .ok record') :
    bytes = format.encode record ∧ record' = record := by
  obtain ⟨fields, listed, rfl⟩ := ok_of_map ok
  cases format with
  | json =>
    obtain ⟨whole, back⟩ := Record.document_of_prefix part (mapError_eq_ok.1 listed)
    rw [Record.reread?_eq_self.2 (Record.FloatFree.survives keeps)] at back
    exact ⟨whole, (Option.some.inj back).symm⟩
  | packed =>
    obtain ⟨whole, rfl⟩ :=
      Record.unpack_of_prefix (Record.lengthsFit_of_pack keeps) part (mapError_eq_ok.1 listed)
    exact ⟨whole, SortedMap.ofList_entries record⟩

/-- The written form has room for every length that it has to count. The packed form has eight bytes
for each, and JSON counts nothing. -/
def RecordFormat.Counts : RecordFormat → Record → Prop
  | .json, _ => True
  | .packed, record => record.LengthsFit

instance (format : RecordFormat) (record : Record) : Decidable (format.Counts record) :=
  match format with
  | .json => .isTrue trivial
  | .packed => inferInstanceAs (Decidable record.LengthsFit)

def RecordFormat.CutShort (format : RecordFormat) (record : Record) (bytes : Bytes) : Prop :=
  bytes <+: format.encode record ∧ bytes ≠ format.encode record

/-- No written record can be read that is cut short, whatever floats it holds. -/
theorem RecordFormat.CutShort.unreadable {format : RecordFormat} {record : Record} {bytes : Bytes}
    (cut : format.CutShort record bytes) (counts : format.Counts record) :
    ∃ reason, format.decode bytes = .error (.unreadable reason) := by
  refine unreadable_of_ne_ok fun fields listed => cut.2 ?_
  cases format with
  | json => exact (Record.document_of_prefix cut.1 (mapError_eq_ok.1 listed)).1
  | packed => exact (Record.unpack_of_prefix counts cut.1 (mapError_eq_ok.1 listed)).1

end TreeStore
