import TreeStore.Key.Token
import TreeStore.Path
/-!
Where an object lies. The two files of a key share a directory and a token. Keys that begin with
the bulk mark are spread over nested shard directories, one for every third character of the rest
of their token, so that no directory grows large; all other keys lie in the bucket itself.
-/
namespace TreeStore.Layout

def bulkMark : String := "s3ql_data_"

def bulkDirectory : String := "s3ql_data"

def payloadSuffix : String := ".dat"

def recordSuffix : String := ".meta"

def bulkTail? (token : String) : Option (List Char) :=
  if bulkMark.toList.isPrefixOf token.toList then
    some (token.toList.drop bulkMark.toList.length)
  else none

/-- The names of the nested shards of a tail, outermost first: its beginnings of three, six,
nine … characters that are shorter than the tail itself. -/
def shards (tail : List Char) : List String :=
  ((List.range tail.length).filter fun n => 0 < n ∧ n % 3 = 0).map
    fun n => String.ofList (tail.take n)

def bulkRoot (bucket : String) : String := Path.child bucket bulkDirectory

def place (bucket key : String) : String :=
  let token := Key.token key
  match bulkTail? token with
  | none => Path.child bucket token
  | some tail => Path.child ((shards tail).foldl Path.child (bulkRoot bucket)) token

def payloadPath (bucket key : String) : String := place bucket key ++ payloadSuffix

def recordPath (bucket key : String) : String := place bucket key ++ recordSuffix

def directory (bucket key : String) : String := Path.parent (payloadPath bucket key)

def compatible (a b : List Char) : Bool := a.isPrefixOf b || b.isPrefixOf a

/-- Whether `dir` can hold, at any depth, the files of a key whose token begins with `start`. Only
directories below the bulk root are ever ruled out, by the shard they stand for. -/
def mayHold (bucket dir start : String) : Bool :=
  let root := bulkRoot bucket
  if dir = root then compatible start.toList bulkMark.toList
  else if !(root ++ "/").toList.isPrefixOf dir.toList then true
  else match bulkTail? start with
    | none => compatible start.toList bulkMark.toList
    | some tail => compatible tail (Path.name dir).toList

end TreeStore.Layout
