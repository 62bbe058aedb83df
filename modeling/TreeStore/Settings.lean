import TreeStore.Record.Format
import TreeStore.Text.Blank
/-!
The settings of a connection, and when they can be used.
-/
namespace TreeStore

structure Settings where
  host : String := "localhost"
  port : UInt16 := 22
  login : String := ""
  password : Option String := none
  /-- The directory that buckets lie in, where it is not the one that sessions begin in. -/
  root : Option String := none
  format : RecordFormat := .json
deriving DecidableEq, Repr

namespace Settings

inductive Defect where
  | blankHost
  | zeroPort
deriving DecidableEq, Repr

def Defect.message : Defect → String
  | .blankHost => "host must not be empty"
  | .zeroPort => "port must be non-zero"

def defect? (settings : Settings) : Option Defect :=
  if settings.host.toList.all Text.isBlank then some .blankHost
  else if settings.port = 0 then some .zeroPort
  else none

def validate (settings : Settings) : Except StoreError Unit :=
  match settings.defect? with
  | some defect => .error (.invalidSettings defect.message)
  | none => .ok ()

theorem defect?_eq_none_iff (settings : Settings) :
    settings.defect? = none ↔
      (∃ c ∈ settings.host.toList, ¬ Text.isBlank c) ∧ settings.port ≠ 0 := by
  unfold defect?
  split <;> rename_i h
  · simp_all
  · split <;> simp_all

end Settings

end TreeStore
