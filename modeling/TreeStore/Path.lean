/-!
Session paths: text with components parted by slashes, relative to the root of a session. The
functions here are pure text; what a path leads to is decided by the disk.
-/
namespace TreeStore.Path

def trimStart (path : String) : String := String.ofList (path.toList.dropWhile (· == '/'))

def trimEnd (path : String) : String :=
  String.ofList (path.toList.reverse.dropWhile (· == '/')).reverse

/-- The path of an entry of the directory `base`; the empty base is the session's root. -/
def child (base name : String) : String :=
  if base.isEmpty then name else trimEnd base ++ "/" ++ name

/-- What stands before the last slash, and the empty path where there is none. -/
def parent (path : String) : String :=
  String.ofList ((path.toList.reverse.dropWhile (· != '/')).drop 1).reverse

def name (path : String) : String :=
  String.ofList (path.toList.reverse.takeWhile (· != '/')).reverse

def fields : List Char → List (List Char)
  | [] => [[]]
  | c :: rest =>
    if c = '/' then [] :: fields rest
    else match fields rest with
      | [] => [[c]]
      | first :: others => (c :: first) :: others

/-- The components of a path: leading, trailing and repeated slashes part nothing. -/
def components (path : String) : List String :=
  ((fields path.toList).filter (· ≠ [])).map String.ofList

@[simp] theorem child_empty (name : String) : child "" name = name := rfl

theorem fields_ne_nil (s : List Char) : fields s ≠ [] := by
  cases s with
  | nil => simp [fields]
  | cons c rest =>
    unfold fields
    split
    · simp
    · split <;> simp

theorem fields_of_no_slash {s : List Char} (h : '/' ∉ s) : fields s = [s] := by
  induction s with
  | nil => rfl
  | cons c rest ih =>
    simp only [List.mem_cons, not_or] at h
    simp [fields, Ne.symm h.1, ih h.2]

theorem fields_append_slash (s t : List Char) :
    fields (s ++ '/' :: t) = fields s ++ fields t := by
  induction s with
  | nil => simp [fields]
  | cons c rest ih =>
    by_cases h : c = '/'
    · simp [fields, h, ih]
    · have more := fields_ne_nil rest
      cases eq : fields rest with
      | nil => exact absurd eq more
      | cons first others => simp [fields, h, ih, eq]

end TreeStore.Path
