import TreeStore.Error.System
/-!
What can go wrong, from the bottom up: an input or output error, the failure of a single call of a
session, and the error of a store operation. Only the failures of calls that carry no meaning for
the store, and a closed connection, are worth a retry.
-/
namespace TreeStore

inductive IoKind where
  | notFound
  | alreadyExists
  | directoryNotEmpty
  | other
deriving DecidableEq, Repr

structure IoError where
  kind : IoKind
  message : String
deriving DecidableEq, Repr

namespace IoError

def ofSystem (error : SystemError) : IoError :=
  let kind :=
    if error = .noEntry then IoKind.notFound
    else if error = .entryExists then .alreadyExists
    else if error = .notEmpty then .directoryNotEmpty
    else .other
  ⟨kind, error.message⟩

/-- A name that holds NUL never reaches the system. -/
def nulInName : IoError := ⟨.other, "file name contained an unexpected NUL byte"⟩

end IoError

inductive CallErrorKind where
  | notFound
  | alreadyExists
  | notEmpty
  | other
deriving DecidableEq, Repr

def CallErrorKind.message : CallErrorKind → String
  | .notFound => "not found"
  | .alreadyExists => "already exists"
  | .notEmpty => "directory not empty"
  | .other => "remote failure"

def IoKind.callKind : IoKind → CallErrorKind
  | .notFound => .notFound
  | .alreadyExists => .alreadyExists
  | .directoryNotEmpty => .notEmpty
  | .other => .other

structure CallError where
  kind : CallErrorKind
  path : String
  text : String
deriving DecidableEq, Repr

namespace CallError

def ofIo (path : String) (error : IoError) : CallError :=
  ⟨error.kind.callKind, path, error.message⟩

def isNotFound (error : CallError) : Bool := error.kind = .notFound

def message (error : CallError) : String :=
  error.kind.message ++ " at " ++ error.path ++ ": " ++ error.text

end CallError

inductive StoreError where
  | keyNotFound (key : String)
  | corruptRecord (key reason : String)
  | bucketNotFound (bucket : String)
  | alreadyExists (path : String)
  | notEmpty (path : String)
  | transport (error : CallError)
  | disconnected
  | invalidSettings (reason : String)
  | unreadable (reason : String)
deriving DecidableEq, Repr

namespace StoreError

def message : StoreError → String
  | .keyNotFound key => "Key not found: " ++ key
  | .corruptRecord key reason => "Corrupt metadata for " ++ key ++ ": " ++ reason
  | .bucketNotFound bucket => "Bucket not found: " ++ bucket
  | .alreadyExists path => "Entry already exists: " ++ path
  | .notEmpty path => "Directory not empty: " ++ path
  | .transport error => "Transport error: " ++ error.message
  | .disconnected => "Connection is closed"
  | .invalidSettings reason => "Invalid configuration: " ++ reason
  | .unreadable reason => "Serialization error: " ++ reason

def isRetryable : StoreError → Bool
  | .transport error => error.kind = .other
  | .disconnected => true
  | _ => false

def isNotFound : StoreError → Bool
  | .keyNotFound _ => true
  | .bucketNotFound _ => true
  | _ => false

/-- What a failed call on an object's payload means: a missing file is a missing key. -/
def ofPayload (key : String) (error : CallError) : StoreError :=
  if error.isNotFound then .keyNotFound key else .transport error

end StoreError

end TreeStore
