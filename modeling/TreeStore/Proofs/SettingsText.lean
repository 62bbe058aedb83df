import TreeStore.Settings.Json
import TreeStore.Proofs.Written
/-!
Settings are read back from their JSON text as they are if they can be used, and are refused with
their defect otherwise (`settings_come_back`). Whatever text settings are read from, be it an object
with missing or unknown fields or a list, they can be used, and so they are read back from the text
that is written of them.
-/
namespace TreeStore

namespace Settings

open Json Text

def withField (settings other : Settings) : Field → Settings
  | .host => { settings with host := other.host }
  | .port => { settings with port := other.port }
  | .login => { settings with login := other.login }
  | .password => { settings with password := other.password }
  | .root => { settings with root := other.root }
  | .format => { settings with format := other.format }

theorem ofName?_name (field : Field) : Field.ofName? field.name = some field := by
  cases field <;> decide

theorem lookup_formatName (format : RecordFormat) :
    formatNames.lookup (formatName format) = some format := by
  cases format <;> decide

theorem reads_optional (text : Option String) (rest : Bytes) :
    Reads (expectOptional readText) (utf8 (writeOptional text)) rest text := by
  cases text with
  | none => exact fun _ _ => ⟨_, _, rfl⟩
  | some text =>
    intro line column
    obtain ⟨line', column', eq⟩ := (reads_quoted "a string" text rest).map some line column
    exact ⟨line', column', eq⟩

theorem reads_format (format : RecordFormat) (rest : Bytes) :
    Reads (expectTagged formatNames (fun format => do expectNull "unit"; pure format) pure)
      (utf8 (writeText (formatName format))) rest format := by
  rw [utf8_writeText]
  apply Reads.first (by decide)
  rw [if_neg (by decide), if_pos (by decide)]
  have named := (reads_knownName (lookup_formatName format) rest).bind (Reads.pure format rest)
  rw [List.append_nil] at named
  exact (reads_advance _ _).bind named

theorem reads_port (port : UInt16) {rest : Bytes} (ends : EndsMember rest) :
    Reads (expectInteger "u16" 0 65535) (utf8 (decimal port.toNat)) rest port.toNat := by
  have signed : signedDecimal (port.toNat : Int) = decimal port.toNat := rfl
  have below := port.toNat_lt
  rw [← signed]
  exact reads_integer "u16" (by omega) (by omega) (by decide) (by decide) ends

theorem reads_field (settings other : Settings) (field : Field) {rest : Bytes}
    (ends : EndsMember rest) :
    Reads (settings.readField field) (utf8 (other.writeField field)) rest
      (settings.withField other field) := by
  cases field with
  | host => exact (reads_quoted "a string" other.host rest).map fun host => { settings with host }
  | port =>
    have read := (reads_port other.port ends).map fun n : Int =>
      { settings with port := UInt16.ofNat n.toNat }
    rwa [Int.toNat_natCast, UInt16.ofNat_toNat] at read
  | login =>
    exact (reads_quoted "a string" other.login rest).map fun login => { settings with login }
  | password =>
    exact (reads_optional other.password rest).map fun password => { settings with password }
  | root => exact (reads_optional other.root rest).map fun root => { settings with root }
  | format => exact (reads_format other.format rest).map fun format => { settings with format }

def moreBytes (settings : Settings) (fields : List Field) : Bytes :=
  fields.flatMap fun field => 0x2C :: 0x22 :: memberBytes field.name (settings.writeField field)

theorem endsMember_moreBytes (settings : Settings) (fields : List Field) (rest : Bytes) :
    EndsMember (settings.moreBytes fields ++ 0x7D :: rest) := by
  cases fields with
  | nil => exact endsMember_brace rest
  | cons field fields => exact ⟨_, .inr rfl⟩

theorem length_le_moreBytes (settings : Settings) (fields : List Field) :
    fields.length ≤ (settings.moreBytes fields).length := by
  induction fields with
  | nil => simp
  | cons field fields ih =>
    simp only [moreBytes, List.flatMap_cons, List.length_cons, List.length_append] at ih ⊢
    omega

theorem reads_member {first : Bool} {opening : Bytes}
    (opens : ∀ rest, Reads (nextKey first) opening rest true) {settings other result : Settings}
    {field : Field} {seen : List Field} (new : field ∉ seen) {fuel : Nat} {more rest : Bytes}
    (ends : EndsMember (more ++ rest))
    (others : Reads (readMembers fuel false (field :: seen) (settings.withField other field))
      more rest result) :
    Reads (readMembers (fuel + 1) first seen settings)
      (opening ++ (memberBytes field.name (other.writeField field) ++ more)) rest result := by
  rw [readMembers]
  refine (opens _).bind ?_
  rw [if_pos rfl]
  unfold memberBytes
  simp only [List.append_assoc]
  refine (reads_text field.name _).bind ?_
  rw [ofName?_name]
  dsimp only
  rw [if_neg new]
  exact (reads_colon _).bind ((reads_field settings other field ends).bind others)

/-- The fuel lasts, since each member takes some of it and leaves the others new. -/
theorem reads_moreMembers {fields seen : List Field} (distinct : (fields ++ seen).Nodup) {fuel : Nat}
    (enough : fields.length < fuel) (settings other : Settings) (rest : Bytes) :
    Reads (readMembers fuel false seen settings) (other.moreBytes fields) (0x7D :: rest)
      (fields.foldl (fun settings => settings.withField other) settings) := by
  induction fields generalizing seen fuel settings with
  | nil =>
    obtain ⟨fuel, rfl⟩ := Nat.exists_eq_add_of_lt enough
    exact fun _ _ => ⟨_, _, rfl⟩
  | cons field fields ih =>
    obtain ⟨fuel, rfl⟩ : ∃ n, fuel = n + 1 := ⟨fuel - 1, by omega⟩
    obtain ⟨new, distinct⟩ := List.nodup_cons.1 distinct
    have later : (fields ++ field :: seen).Nodup :=
      List.perm_middle.symm.nodup (List.nodup_cons.2 ⟨new, distinct⟩)
    have others := ih later (Nat.lt_of_succ_lt_succ enough) (settings.withField other field)
    exact reads_member reads_nextKey_more (fun mem => new (List.mem_append_right _ mem))
      (other.endsMember_moreBytes fields rest) others

def membersBytes (settings : Settings) : Bytes :=
  [0x22] ++ (memberBytes Field.host.name (settings.writeField .host) ++
    settings.moreBytes [.port, .login, .password, .root, .format])

theorem encode_toJson (settings : Settings) :
    Utf8.encode settings.toJson = [0x7B] ++ (settings.membersBytes ++ [0x7D]) := by
  rw [toJson, encode_writeObject, Field.all, List.map_cons, utf8_intercalate_cons,
    List.flatMap_map, utf8_member]
  simp only [utf8_member]
  rfl

theorem reads_members (settings : Settings) {fuel : Nat} (enough : Field.all.length < fuel)
    (rest : Bytes) :
    Reads (readMembers fuel true [] {}) settings.membersBytes (0x7D :: rest) settings := by
  obtain ⟨fuel, rfl⟩ : ∃ n, fuel = n + 1 := ⟨fuel - 1, by omega⟩
  have distinct : ([.port, .login, .password, .root, .format] ++ [.host] : List Field).Nodup := by
    decide
  have others := reads_moreMembers distinct (Nat.lt_of_succ_lt_succ enough)
    (withField {} settings .host) settings rest
  -- Settings consist of their fields, so what the fold over all of them makes are the settings.
  exact reads_member reads_nextKey_first List.not_mem_nil
    (settings.endsMember_moreBytes _ rest) others

theorem reads_settings (settings : Settings) (rest : Bytes) :
    Reads reader (Utf8.encode settings.toJson) rest settings := by
  rw [encode_toJson]
  apply Reads.first (by decide)
  rw [if_pos (by decide)]
  refine (reads_advance _ _).bind (Reads.braced fun line column => ?_)
  have enough : Field.all.length < (settings.membersBytes ++ 0x7D :: rest).length + 1 := by
    have := settings.length_le_moreBytes [.port, .login, .password, .root, .format]
    simp only [membersBytes, Field.all, List.length_append, List.length_cons, List.length_nil]
      at this ⊢
    omega
  exact settings.reads_members enough rest line column

theorem ofJson_toJson (settings : Settings) :
    ofJson settings.toJson = settings.validate.map fun _ => settings := by
  obtain ⟨line, column, eq⟩ := settings.reads_settings [] 1 0
  rw [List.append_nil] at eq
  have read : document reader (Utf8.encode settings.toJson) = .ok settings :=
    document_of_reader eq
  rw [ofJson, read]
  show (do settings.validate; pure settings) = _
  cases settings.validate <;> rfl

theorem validate_of_ofJson {text : String} {settings : Settings}
    (read : ofJson text = .ok settings) : settings.validate = .ok () := by
  unfold ofJson at read
  cases found : (document reader (Utf8.encode text)).mapError
      fun failure => StoreError.unreadable failure.message with
  | error =>
    rw [found] at read
    cases read
  | ok written =>
    rw [found] at read
    change (do written.validate; pure written) = _ at read
    cases valid : written.validate with
    | error =>
      rw [valid] at read
      cases read
    | ok =>
      rw [valid] at read
      cases read
      exact valid

theorem validate_eq_ok {settings : Settings} :
    settings.validate = .ok () ↔
      (∃ c ∈ settings.host.toList, ¬ Text.isBlank c) ∧ settings.port ≠ 0 := by
  rw [← settings.defect?_eq_none_iff, validate]
  cases settings.defect? <;> simp

end Settings

/-- Settings that can be used are read back from their text with every field as it was, and others
are refused there as `validate` refuses them. Settings that are read from any text can be used:
their host is not blank, their port is not zero, and they are read back from their own text. -/
theorem settings_come_back :
    (∀ settings : Settings, settings.validate = .ok () →
      Settings.ofJson settings.toJson = .ok settings) ∧
    (∀ (settings : Settings) (error : StoreError), settings.validate = .error error →
      (∃ message, error = .invalidSettings message) ∧
        Settings.ofJson settings.toJson = .error error) ∧
    ∀ (text : String) (settings : Settings), Settings.ofJson text = .ok settings →
      (∃ c ∈ settings.host.toList, ¬ Text.isBlank c) ∧ settings.port ≠ 0 ∧
        Settings.ofJson settings.toJson = .ok settings := by
  have kept : ∀ settings : Settings, settings.validate = .ok () →
      Settings.ofJson settings.toJson = .ok settings := fun settings valid => by
    rw [settings.ofJson_toJson, valid]
    rfl
  refine ⟨kept, fun settings error refused => ⟨?_, ?_⟩, fun text settings read => ?_⟩
  · rw [Settings.validate] at refused
    split at refused
    · cases refused
      exact ⟨_, rfl⟩
    · cases refused
  · rw [settings.ofJson_toJson, refused]
    rfl
  · have valid := Settings.validate_of_ofJson read
    obtain ⟨host, port⟩ := Settings.validate_eq_ok.1 valid
    exact ⟨host, port, kept settings valid⟩

theorem quoted_settings_come_back :
    let settings : Settings :=
      { host := "\"\\\n\x00é😀", port := 65535, login := "\t", password := some "", format := .packed }
    let blank : Settings := { settings with host := "\t 　", port := 0 }
    let object := "\x7b\"tls\":[1],\"port\":1,\"password\":null\x7d"
    Settings.ofJson settings.toJson = .ok settings ∧
      Settings.ofJson blank.toJson = .error (.invalidSettings "host must not be empty") ∧
      Settings.ofJson object = .ok { port := 1 } ∧
      Settings.ofJson ({ port := 1 } : Settings).toJson = .ok { port := 1 } ∧
      Settings.ofJson "[\"h\",7]" = .ok { host := "h", port := 7 } ∧
      Settings.ofJson ({ host := "h", port := 7 } : Settings).toJson =
        .ok { host := "h", port := 7 } := by
  obtain ⟨kept, refused, read⟩ := settings_come_back
  have object : Settings.ofJson "\x7b\"tls\":[1],\"port\":1,\"password\":null\x7d" =
      .ok { port := 1 } := by decide +kernel
  have list : Settings.ofJson "[\"h\",7]" = .ok { host := "h", port := 7 } := by decide +kernel
  refine ⟨kept _ (by decide +kernel), (refused _ _ (by decide +kernel)).2, object, ?_, list, ?_⟩
  · exact (read _ _ object).2.2
  · exact (read _ _ list).2.2

end TreeStore
