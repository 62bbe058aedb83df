import TreeStore.Record
import TreeStore.Text.Utf8
import TreeStore.Text.Numeral
/-!
Records as packed bytes: numbers are little-endian, a text is its length and its bytes, and a value
is the number of its kind and its content. Bytes after the last field are not looked at.
-/
namespace TreeStore.Record

def littleEndian : Nat → Nat → Bytes
  | 0, _ => []
  | width + 1, n => UInt8.ofNat n :: littleEndian width (n / 256)

def ofLittleEndian : Bytes → Nat
  | [] => 0
  | b :: rest => b.toNat + 256 * ofLittleEndian rest

inductive PackedFailure where
  | endOfNumber
  | endOfText
  | notBool (byte : UInt8)
  | unknownKind (number : Nat)
  | badText (defect : Text.Utf8.Defect)
deriving DecidableEq, Repr

def PackedFailure.message : PackedFailure → String
  | .endOfNumber => "io error: unexpected end of file"
  | .endOfText => "io error: "
  | .notBool byte =>
    "invalid u8 while decoding bool, expected 0 or 1, found " ++ shown byte.toNat
  | .unknownKind number =>
    "invalid value: integer `" ++ shown number ++ "`, expected variant index 0 <= i < 4"
  | .badText ⟨start, some length⟩ =>
    "string is not valid utf8: invalid utf-8 sequence of " ++ shown length ++
      " bytes from index " ++ shown start
  | .badText ⟨start, none⟩ =>
    "string is not valid utf8: incomplete utf-8 byte sequence from index " ++ shown start
where
  shown (n : Nat) : String := String.ofList (Text.decimal n)

def packText (text : String) : Bytes :=
  let bytes := Text.Utf8.encode text
  littleEndian 8 bytes.length ++ bytes

def packValue : Value → Bytes
  | .bool b => littleEndian 4 0 ++ [if b then 1 else 0]
  | .int n => littleEndian 4 1 ++ littleEndian 8 n.toUInt64.toNat
  | .float bits => littleEndian 4 2 ++ littleEndian 8 bits.toNat
  | .text s => littleEndian 4 3 ++ packText s

def packField (field : String × Value) : Bytes := packText field.1 ++ packValue field.2

def pack (record : Record) : Bytes :=
  littleEndian 8 record.size ++ record.entries.flatMap packField

abbrev Unpacker := StateT Bytes (Except PackedFailure)

def splitFront? : Nat → Bytes → Option (Bytes × Bytes)
  | 0, bytes => some ([], bytes)
  | _ + 1, [] => none
  | n + 1, b :: rest => (splitFront? n rest).map fun (front, rest) => (b :: front, rest)

def takeNumber (width : Nat) : Unpacker Nat := fun bytes =>
  match splitFront? width bytes with
  | some (front, rest) => .ok (ofLittleEndian front, rest)
  | none => .error .endOfNumber

def takeText : Unpacker String := do
  let length ← takeNumber 8
  fun bytes =>
    match splitFront? length bytes with
    | none => .error .endOfText
    | some (front, rest) =>
      match Text.Utf8.decode front with
      | .ok text => .ok (text, rest)
      | .error defect => .error (.badText defect)

def takeBool : Unpacker Bool := do
  match ← takeNumber 1 with
  | 0 => pure false
  | 1 => pure true
  | n => throw (.notBool (UInt8.ofNat n))

def takeValue : Unpacker Value := do
  match ← takeNumber 4 with
  | 0 => .bool <$> takeBool
  | 1 => (fun n => .int (UInt64.ofNat n).toInt64) <$> takeNumber 8
  | 2 => (fun n => .float (UInt64.ofNat n)) <$> takeNumber 8
  | 3 => .text <$> takeText
  | n => throw (.unknownKind n)

def takeFields : Nat → Unpacker (List (String × Value))
  | 0 => pure []
  | n + 1 => do
    let name ← takeText
    let value ← takeValue
    ((name, value) :: ·) <$> takeFields n

def unpack (bytes : Bytes) : Except PackedFailure (List (String × Value)) :=
  Prod.fst <$> (do takeFields (← takeNumber 8) : Unpacker _) bytes

@[simp] theorem length_littleEndian (width n : Nat) : (littleEndian width n).length = width := by
  induction width generalizing n with
  | zero => rfl
  | succ width ih => simp [littleEndian, ih]

theorem splitFront?_append (front rest : Bytes) :
    splitFront? front.length (front ++ rest) = some (front, rest) := by
  induction front with
  | nil => rfl
  | cons b front ih => simp [splitFront?, ih]

end TreeStore.Record
