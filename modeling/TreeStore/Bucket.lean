import TreeStore.Connection
import TreeStore.Key.Layout
/-!
Buckets: keys, each with a payload and a record, kept as two files below one directory. The payload
is written before the record and taken away before it, so an object that was left half way is one
whose record is missing or torn.
-/
namespace TreeStore

structure Bucket where
  connection : ConnectionId
  name : String
deriving DecidableEq, Repr

namespace ConnectionId

def createBucket (id : ConnectionId) (name : String) : Operation Bucket := do
  if ← id.contains name then throw (.alreadyExists name)
  match ← (← id.session).makeDirectory name with
  | .ok () => pure ⟨id, name⟩
  | .error error =>
    throw (if error.kind = .alreadyExists then .alreadyExists name else .transport error)

def openBucket (id : ConnectionId) (name : String) : Operation Bucket := do
  if ← id.contains name then pure ⟨id, name⟩ else throw (.bucketNotFound name)

def deleteBucket (id : ConnectionId) (name : String) (recursive : Bool) : Operation Unit := do
  unless ← id.contains name do throw (.bucketNotFound name)
  if recursive then id.purge name
  match ← (← id.session).removeDirectory name with
  | .ok () => pure ()
  | .error error =>
    throw (if error.kind = .notEmpty then .notEmpty name else .transport error)

end ConnectionId

namespace Bucket

def payloadPath (bucket : Bucket) (key : String) : String := Layout.payloadPath bucket.name key

def recordPath (bucket : Bucket) (key : String) : String := Layout.recordPath bucket.name key

def session (bucket : Bucket) : Operation Session := bucket.connection.session

def format (bucket : Bucket) : Action RecordFormat := do
  return (← bucket.connection.settings).format

/-- Makes a call on a path. If something on the way to it is missing, makes the directories above it
and tries once more. -/
def withDirectories {α : Type} (bucket : Bucket) (path : String)
    (call : Action (Except CallError α)) : Operation α := do
  match ← call with
  | .ok value => pure value
  | .error error =>
    if error.isNotFound then do
      bucket.connection.makeDirectories (Path.parent path)
      Operation.transport (← call)
    else throw (.transport error)

def readRecord (bucket : Bucket) (session : Session) (key : String) : Operation Record := do
  let path := bucket.recordPath key
  let source ← Operation.onPayload key (← session.openRead path)
  let (bytes, failure?) ← Site.pour source none
  match failure? with
  | some error => throw (.transport (.ofIo path error))
  | none =>
    match (← bucket.format).decode bytes with
    | .ok record => pure record
    | .error error => throw (.corruptRecord key error.message)

def writeRecord (bucket : Bucket) (session : Session) (key : String) (record : Record) :
    Operation Unit := do
  let path := bucket.recordPath key
  let bytes := (← bucket.format).encode record
  let writer ← Operation.transport (← session.openWrite path)
  let _ ← Operation.streamed path (← writer.copy (.ofBytes bytes))
  Operation.streamed path (← writer.shutdown)

def writePayload (bucket : Bucket) (session : Session) (key : String) (source : Source) :
    Operation Nat := do
  let path := bucket.payloadPath key
  let writer ← bucket.withDirectories path (session.openWrite path)
  let size ← Operation.streamed path (← writer.copy source)
  Operation.streamed path (← writer.shutdown)
  pure size

def contains (bucket : Bucket) (key : String) : Operation Bool :=
  bucket.connection.contains (bucket.payloadPath key)

def require (bucket : Bucket) (key : String) : Operation Unit := do
  if ← bucket.contains key then pure () else throw (.keyNotFound key)

def fetchRecord (bucket : Bucket) (key : String) : Operation Record := do
  bucket.readRecord (← bucket.session) key

def openPayload (bucket : Bucket) (session : Session) (key : String) : Operation Source := do
  Operation.onPayload key (← session.openRead (bucket.payloadPath key))

/-- Appends a payload to a sink and reads its record; the sink keeps what has come through even if
the record cannot be had. -/
def fetch (bucket : Bucket) (key : String) (sink : Sink) :
    Action (Except StoreError Record × Bytes) := do
  let opening : Operation (Session × Source) := do
    let session ← bucket.session
    return (session, ← bucket.openPayload session key)
  match ← opening.run with
  | .error error => return (.error error, sink.held)
  | .ok (session, source) =>
    let (bytes, failure?) ← Site.pour source sink.cut?
    let held := sink.held ++ bytes
    match failure? with
    | some error => return (.error (.transport (.ofIo (bucket.payloadPath key) error)), held)
    | none => return (← (bucket.readRecord session key).run, held)

def fetchBytes (bucket : Bucket) (key : String) : Operation (Record × Bytes) := do
  let (record, bytes) ← bucket.fetch key {}
  match record with
  | .ok record => pure (record, bytes)
  | .error error => throw error

def store (bucket : Bucket) (key : String) (payload : Payload) (record : Record) :
    Operation Nat := do
  let session ← bucket.session
  let payload ← Operation.streamed (bucket.payloadPath key) payload.rewind
  let size ← bucket.writePayload session key payload.source
  bucket.writeRecord session key record
  pure size

def storeBytes (bucket : Bucket) (key : String) (bytes : Bytes) (record : Record) :
    Operation Nat :=
  bucket.store key { bytes } record

/-- Deletes an object. A key without one is an error unless `force`. -/
def delete (bucket : Bucket) (key : String) (force : Bool) : Operation Unit := do
  let session ← bucket.session
  match ← session.removeFile (bucket.payloadPath key) with
  | .error error =>
    if error.isNotFound && force then pure () else throw (.ofPayload key error)
  | .ok () =>
    match ← session.removeFile (bucket.recordPath key) with
    | .ok () => pure ()
    | .error error => if error.isNotFound then pure () else throw (.transport error)

def rename (bucket : Bucket) (source target : String) : Operation Unit := do
  let session ← bucket.session
  bucket.require source
  bucket.withDirectories (bucket.payloadPath target)
    (session.rename (bucket.payloadPath source) (bucket.payloadPath target))
  match ← session.rename (bucket.recordPath source) (bucket.recordPath target) with
  | .ok () => pure ()
  | .error error => if error.isNotFound then pure () else throw (.transport error)

def updateRecord (bucket : Bucket) (key : String) (record : Record) : Operation Unit := do
  let session ← bucket.session
  bucket.require key
  bucket.writeRecord session key record

/-- Copies an object, with its own record or another. Onto itself only the record is replaced. -/
def copy (bucket : Bucket) (source target : String) (record? : Option Record) :
    Operation Unit := do
  if source = target then
    match record? with
    | some record => bucket.updateRecord source record
    | none => bucket.require source
  else
    let session ← bucket.session
    let reader ← bucket.openPayload session source
    let record ← match record? with
      | some record => pure record
      | none => bucket.readRecord session source
    let _ ← bucket.writePayload session target reader
    bucket.writeRecord session target record

def objectSize (bucket : Bucket) (key : String) : Operation Nat := do
  let session ← bucket.session
  return (← Operation.onPayload key (← session.stat (bucket.payloadPath key))).size

def isPayload (file : Disk.Entry) : Bool :=
  Layout.payloadSuffix.toList.isSuffixOf file.name.toList

def totalSize (bucket : Bucket) : Operation Nat := do
  let session ← bucket.session
  (Walk.start session bucket.name).fold
    (fun size visit =>
      pure ((visit.files.filter isPayload).foldl (fun size file => size + file.size) size)) 0

def clear (bucket : Bucket) : Operation Unit := bucket.connection.purge bucket.name

def describe (bucket : Bucket) : String :=
  "<remote bucket, name=" ++ Text.quoted bucket.name ++ ">"

end Bucket

namespace ConnectionId

def describe (id : ConnectionId) : Action String := do
  let settings ← id.settings
  let connected ← id.isConnected
  return "RemoteConnection \x7b host: " ++ Text.quoted settings.host ++ ", port: " ++
    String.ofList (Text.decimal settings.port.toNat) ++ ", connected: " ++
    (if connected then "true" else "false") ++ " \x7d"

end ConnectionId

end TreeStore
