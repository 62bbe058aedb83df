import TreeStore.Bucket
/-!
Listing the keys of a bucket that begin with a given text. A listing is asked for one key at a time
and makes no call before the key that needs it is asked for.
-/
namespace TreeStore

inductive Listing where
  | waiting (bucket : Bucket) (start : String)
  /-- The keys that are ready come from the directory visited last. -/
  | scanning (start : String) (walk : Walk) (ready : List String)
  | finished

namespace Listing

def keyOf? (file : Disk.Entry) : Option String :=
  if Bucket.isPayload file then
    some (Key.ofToken (String.ofList (file.name.toList.take
      (file.name.toList.length - Layout.payloadSuffix.toList.length))))
  else none

def matching (start : String) (visit : Visit) : List String :=
  (visit.files.filterMap keyOf?).filter fun key => start.toList.isPrefixOf key.toList

def base (bucket start : String) : String :=
  if start.isEmpty then bucket else Path.parent (Layout.place bucket start)

/-- Starts the walk. Where its first directory is missing there is nothing to list, unless that is
the bucket itself. -/
def enter (bucket : Bucket) (start : String) : Operation (Option Walk) := do
  let session ← bucket.session
  let base := base bucket.name start
  let walk := Walk.start session base
    fun directory => Layout.mayHold bucket.name directory (Key.token start)
  if base = bucket.name then pure (some walk)
  else if ← bucket.connection.contains base then pure (some walk)
  else pure none

def scan (start : String) : Nat → Walk → Action (Option (Except StoreError String × Listing))
  | 0, _ => pure none
  | bound + 1, walk => do
    match ← walk.next? with
    | .error error => return some (.error (.transport error), finished)
    | .ok none => return none
    | .ok (some (visit, walk)) =>
      match matching start visit with
      | [] => scan start bound walk
      | key :: ready => return some (.ok key, scanning start walk ready)

def scanAll (start : String) (walk : Walk) :
    Action (Option (Except StoreError String × Listing)) := do
  scan start (← Site.visitBound) walk

def next? : Listing → Action (Option (Except StoreError String × Listing))
  | .waiting bucket start => do
    match ← (enter bucket start).run with
    | .error error => return some (.error error, finished)
    | .ok none => return none
    | .ok (some walk) => scanAll start walk
  | .scanning start walk [] => scanAll start walk
  | .scanning start walk (key :: ready) => return some (.ok key, scanning start walk ready)
  | .finished => return none

def take : Nat → Listing → Action (List String × Option StoreError)
  | 0, _ => pure ([], none)
  | n + 1, listing => do
    match ← listing.next? with
    | none => return ([], none)
    | some (.error error, _) => return ([], some error)
    | some (.ok key, listing) =>
      let (keys, error?) ← take n listing
      return (key :: keys, error?)

end Listing

namespace Bucket

def list (bucket : Bucket) (start : String) (limit? : Option Nat := none) :
    Action (List String × Option StoreError) := do
  match limit? with
  | some limit => Listing.take limit (.waiting bucket start)
  | none => Listing.take (← Site.itemBound) (.waiting bucket start)

end Bucket

end TreeStore
