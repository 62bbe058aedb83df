import TreeStore.Record.Format
/-!
Packed records are read back as they were written, whatever follows them, provided that no length in
them is more than a number of eight bytes can count (`packed_record_ignores_trailer`). A packed form
that is itself shorter than that has no such length (`lengthsFit_of_pack`).
-/
namespace TreeStore

theorem bind_of_ok {σ ε α β : Type} {first : StateT σ (Except ε) α} {next : α → StateT σ (Except ε) β}
    {state state' : σ} {a : α} (h : first state = .ok (a, state')) :
    (first >>= next) state = next a state' := by
  show (first state >>= fun answer => next answer.1 answer.2) = _
  rw [h]
  rfl

theorem bind_eq_ok {σ ε α β : Type} {first : StateT σ (Except ε) α}
    {next : α → StateT σ (Except ε) β} {state : σ} {result : β × σ} :
    (first >>= next) state = .ok result ↔
      ∃ a middle, first state = .ok (a, middle) ∧ next a middle = .ok result := by
  constructor
  · intro done
    change (first state >>= fun answer => next answer.1 answer.2) = _ at done
    cases eq : first state with
    | error => rw [eq] at done; cases done
    | ok answer => exact ⟨answer.1, answer.2, rfl, by rw [eq] at done; exact done⟩
  · rintro ⟨a, middle, eq, done⟩
    exact (bind_of_ok eq).trans done

theorem bind_congr_of_ok {σ ε α β : Type} {first : StateT σ (Except ε) α}
    {next next' : α → StateT σ (Except ε) β} {state : σ}
    (same : ∀ a middle, first state = .ok (a, middle) → next a middle = next' a middle) :
    (first >>= next) state = (first >>= next') state := by
  cases eq : first state with
  | error error =>
    show (first state >>= fun answer => next answer.1 answer.2) =
      (first state >>= fun answer => next' answer.1 answer.2)
    rw [eq]
    rfl
  | ok answer => rw [bind_of_ok eq, bind_of_ok eq, same _ _ eq]

theorem map_of_ok {σ ε α β : Type} {first : StateT σ (Except ε) α} {f : α → β}
    {state state' : σ} {a : α} (h : first state = .ok (a, state')) :
    (f <$> first) state = .ok (f a, state') := by
  show (first state >>= fun answer => pure (f answer.1, answer.2)) = _
  rw [h]
  rfl

theorem map_congr_of_eq {σ ε α β : Type} {first first' : StateT σ (Except ε) α} {f : α → β}
    {state : σ} (same : first state = first' state) :
    (f <$> first) state = (f <$> first') state := by
  show (first state >>= fun answer => pure (f answer.1, answer.2)) = _
  rw [same]
  rfl

theorem ok_of_map {ε α β : Type} {answer : Except ε α} {f : α → β} {b : β}
    (ok : f <$> answer = .ok b) : ∃ a, answer = .ok a ∧ f a = b := by
  cases answer with
  | error => cases ok
  | ok a => exact ⟨a, rfl, Except.ok.inj ok⟩

theorem mapError_eq_ok {ε ε' α : Type} {answer : Except ε α} {f : ε → ε'} {a : α} :
    answer.mapError f = .ok a ↔ answer = .ok a := by
  cases answer with
  | error => exact ⟨fun eq => (nomatch eq), fun eq => (nomatch eq)⟩
  | ok => exact ⟨fun eq => congrArg _ (Except.ok.inj eq), fun eq => congrArg _ (Except.ok.inj eq)⟩

theorem mapError_of_ne_ok {ε ε' α : Type} {answer : Except ε α} {f : ε → ε'}
    (refused : ∀ a, answer.mapError f ≠ .ok a) :
    ∃ error, answer.mapError f = .error (f error) := by
  cases answer with
  | error error => exact ⟨error, rfl⟩
  | ok a => exact absurd rfl (refused a)

theorem toOption_mapError {ε ε' α : Type} (answer : Except ε α) (f : ε → ε') :
    (answer.mapError f).toOption = answer.toOption := by
  cases answer <;> rfl

theorem toOption_eq_some {ε α : Type} {answer : Except ε α} {a : α} :
    answer.toOption = some a ↔ answer = .ok a := by
  cases answer with
  | error => exact ⟨fun eq => (nomatch eq), fun eq => (nomatch eq)⟩
  | ok => exact ⟨fun eq => congrArg _ (Option.some.inj eq), fun eq => congrArg _ (Except.ok.inj eq)⟩

namespace Record

def lengthBound : Nat := 0x10000000000000000

theorem ofLittleEndian_littleEndian (width n : Nat) :
    ofLittleEndian (littleEndian width n) = n % Nat.pow 256 width := by
  induction width generalizing n with
  | zero => simp [littleEndian, ofLittleEndian, Nat.mod_one]
  | succ width ih =>
    have split : Nat.pow 256 (width + 1) = 256 * Nat.pow 256 width := by
      rw [Nat.mul_comm]
      rfl
    rw [littleEndian, ofLittleEndian, ih, split, Nat.mod_mul]
    simp

theorem takeNumber_littleEndian {width n : Nat} (small : n < Nat.pow 256 width) (rest : Bytes) :
    takeNumber width (littleEndian width n ++ rest) = .ok (n, rest) := by
  have front := splitFront?_append (littleEndian width n) rest
  rw [length_littleEndian] at front
  simp only [takeNumber, front, ofLittleEndian_littleEndian, Nat.mod_eq_of_lt small]

def TextFits (text : String) : Prop := (Text.Utf8.encode text).length < lengthBound

instance (text : String) : Decidable (TextFits text) := Nat.decLt ..

def ValueFits : Value → Prop
  | .text s => TextFits s
  | _ => True

instance : (value : Value) → Decidable (ValueFits value)
  | .text s => inferInstanceAs (Decidable (TextFits s))
  | .bool _ | .int _ | .float _ => .isTrue trivial

def FieldFits (field : String × Value) : Prop := TextFits field.1 ∧ ValueFits field.2

instance (field : String × Value) : Decidable (FieldFits field) := instDecidableAnd

/-- Every length that the packed form of the record has to count is below the bound: the number of its
fields and the numbers of bytes in its texts. -/
structure LengthsFit (record : Record) : Prop where
  size : record.size < lengthBound
  fields : ∀ field ∈ record.entries, FieldFits field

instance (record : Record) : Decidable (LengthsFit record) :=
  decidable_of_iff (record.size < lengthBound ∧ ∀ field ∈ record.entries, FieldFits field)
    ⟨fun ⟨size, fields⟩ => ⟨size, fields⟩, fun ⟨size, fields⟩ => ⟨size, fields⟩⟩

theorem takeText_packText {text : String} (fits : TextFits text) (rest : Bytes) :
    takeText (packText text ++ rest) = .ok (text, rest) := by
  rw [packText, List.append_assoc]
  refine (bind_of_ok (takeNumber_littleEndian fits _)).trans ?_
  rw [splitFront?_append]
  dsimp only
  rw [Text.Utf8.decode_encode]

theorem takeValue_packValue {value : Value} (fits : ValueFits value) (rest : Bytes) :
    takeValue (packValue value ++ rest) = .ok (value, rest) := by
  cases value with
  | bool b =>
    rw [packValue, List.append_assoc]
    refine (bind_of_ok (takeNumber_littleEndian (by decide) _)).trans ?_
    cases b <;> rfl
  | int n =>
    rw [packValue, List.append_assoc]
    refine (bind_of_ok (takeNumber_littleEndian (by decide) _)).trans ?_
    refine (map_of_ok (takeNumber_littleEndian (UInt64.toNat_lt _) rest)).trans ?_
    rw [UInt64.ofNat_toNat, Int64.toInt64_toUInt64]
  | float bits =>
    rw [packValue, List.append_assoc]
    refine (bind_of_ok (takeNumber_littleEndian (by decide) _)).trans ?_
    refine (map_of_ok (takeNumber_littleEndian (UInt64.toNat_lt _) rest)).trans ?_
    rw [UInt64.ofNat_toNat]
  | text s =>
    rw [packValue, List.append_assoc]
    refine (bind_of_ok (takeNumber_littleEndian (by decide) _)).trans ?_
    exact map_of_ok (takeText_packText fits rest)

theorem takeFields_flatMap {fields : List (String × Value)} (fit : ∀ field ∈ fields, FieldFits field)
    (rest : Bytes) :
    takeFields fields.length (fields.flatMap packField ++ rest) = .ok (fields, rest) := by
  induction fields with
  | nil => rfl
  | cons field fields ih =>
    obtain ⟨name, value⟩ := field
    obtain ⟨⟨name_fits, value_fits⟩, fit⟩ := List.forall_mem_cons.1 fit
    simp only [List.flatMap_cons, packField, List.append_assoc]
    refine (bind_of_ok (takeText_packText name_fits _)).trans ?_
    refine (bind_of_ok (takeValue_packValue value_fits _)).trans ?_
    exact map_of_ok (ih fit)

theorem takeFields_pack {record : Record} (fit : LengthsFit record) (rest : Bytes) :
    (do takeFields (← takeNumber 8) : Unpacker _) (record.pack ++ rest) =
      .ok (record.entries, rest) := by
  rw [pack, List.append_assoc]
  exact (bind_of_ok (takeNumber_littleEndian fit.size _)).trans (takeFields_flatMap fit.fields rest)

theorem unpack_pack_append {record : Record} (fit : LengthsFit record) (rest : Bytes) :
    unpack (record.pack ++ rest) = .ok record.entries := by
  rw [unpack, takeFields_pack fit]
  rfl

theorem length_le_flatMap (fields : List (String × Value)) :
    fields.length ≤ (fields.flatMap packField).length := by
  induction fields with
  | nil => simp
  | cons field fields ih =>
    rw [List.flatMap_cons, packField, packText]
    simp only [List.length_cons, List.length_append, length_littleEndian]
    omega

theorem fieldFits_of_packField {field : String × Value}
    (small : (packField field).length < lengthBound) : FieldFits field := by
  obtain ⟨name, value⟩ := field
  rw [packField, packText, List.length_append, List.length_append] at small
  dsimp only at small
  refine ⟨show (Text.Utf8.encode name).length < lengthBound by omega, ?_⟩
  cases value with
  | bool | int | float => trivial
  | text s =>
    rw [packValue, packText, List.length_append, List.length_append] at small
    exact (show (Text.Utf8.encode s).length < lengthBound by omega)

theorem lengthsFit_of_pack {record : Record} (small : record.pack.length < lengthBound) :
    LengthsFit record := by
  rw [pack, List.length_append, length_littleEndian] at small
  have fields : (record.entries.flatMap packField).length < lengthBound := by omega
  refine ⟨Nat.lt_of_le_of_lt (length_le_flatMap record.entries) fields, fun field mem => ?_⟩
  obtain ⟨before, after, split⟩ := List.append_of_mem mem
  rw [split, List.flatMap_append, List.flatMap_cons, List.length_append, List.length_append] at fields
  exact fieldFits_of_packField (by omega)

theorem unpack_pack {record : Record} (small : record.pack.length < lengthBound) :
    unpack record.pack = .ok record.entries := by
  have whole := unpack_pack_append (lengthsFit_of_pack small) []
  rwa [List.append_nil] at whole

end Record

theorem RecordFormat.decode_of_fields {format : RecordFormat} {bytes : Bytes} {record : Record}
    (listed : format.fields bytes = .ok record.entries) : format.decode bytes = .ok record := by
  rw [decode, listed]
  exact congrArg Except.ok (SortedMap.ofList_entries record)

/-- A record whose lengths fit comes back from its packed form, every float with the same bits, and no
bytes that follow the packed form make a difference. -/
theorem packed_record_ignores_trailer {record : Record} (fit : Record.LengthsFit record)
    (trailer : Bytes) :
    RecordFormat.packed.decode (RecordFormat.packed.encode record ++ trailer) = .ok record := by
  refine RecordFormat.decode_of_fields (mapError_eq_ok.2 ?_)
  exact Record.unpack_pack_append fit trailer

theorem packed_record_ends_before_another :
    let record := Record.ofFields [("größe", .int (-9223372036854775808)), ("", .bool true),
      ("ratio", .float 0x7FF8000000000001), ("\x00", .text "=\"")]
    let other := Record.ofFields [("größe", .int 1)]
    Record.LengthsFit record ∧ RecordFormat.packed.decode
      (RecordFormat.packed.encode record ++ RecordFormat.packed.encode other) = .ok record := by
  intro record other
  have fit : Record.LengthsFit record := by decide +kernel
  exact ⟨fit, packed_record_ignores_trailer fit _⟩

end TreeStore
