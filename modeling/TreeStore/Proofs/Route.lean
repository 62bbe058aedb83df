import TreeStore.Site.Session
import TreeStore.Proofs.Tree
/-!
Where paths lead. Names alone decide the place (`settle`, `locate`); the tree only decides whether
the way is open. `slot_of_target` says this of any path the disk accepts, and `target_resolve` says
when the disk accepts a path written from plain names below the root of a session.
-/
namespace TreeStore

namespace Path

theorem fields_mem {s field : List Char} (mem : field ∈ fields s) :
    '/' ∉ field ∧ ∀ c ∈ field, c ∈ s := by
  induction s generalizing field with
  | nil =>
    obtain rfl : field = [] := by simpa [fields] using mem
    simp
  | cons c rest ih =>
    unfold fields at mem
    split at mem
    case isTrue =>
      rcases List.mem_cons.1 mem with rfl | mem
      · simp
      · exact ⟨(ih mem).1, fun d inside => List.mem_cons_of_mem _ ((ih mem).2 d inside)⟩
    case isFalse apart =>
      split at mem
      case h_1 nothing => exact absurd nothing (fields_ne_nil rest)
      case h_2 first others eq =>
        rcases List.mem_cons.1 mem with rfl | mem
        · have head := ih (eq ▸ List.mem_cons_self : first ∈ fields rest)
          refine ⟨?_, fun d inside => ?_⟩
          · rw [List.mem_cons, not_or]
            exact ⟨Ne.symm apart, head.1⟩
          · rcases List.mem_cons.1 inside with rfl | inside
            · simp
            · exact List.mem_cons_of_mem _ (head.2 d inside)
        · have tail := ih (eq ▸ List.mem_cons_of_mem _ mem : field ∈ fields rest)
          exact ⟨tail.1, fun d inside => List.mem_cons_of_mem _ (tail.2 d inside)⟩

theorem mem_components {path name : String} (mem : name ∈ components path) :
    name ≠ "" ∧ '/' ∉ name.toList ∧ ∀ c ∈ name.toList, c ∈ path.toList := by
  obtain ⟨field, inside, rfl⟩ := List.mem_map.1 mem
  obtain ⟨inside, some⟩ := List.mem_filter.1 inside
  have field_mem := fields_mem inside
  rw [String.toList_ofList]
  refine ⟨fun empty => ?_, field_mem⟩
  have := congrArg String.toList empty
  simp_all

theorem plain_of_mem_components {path name : String} (mem : name ∈ components path)
    (no_nul : '\x00' ∉ path.toList) (not_here : name ≠ ".") (not_above : name ≠ "..") :
    Plain name :=
  have inside := mem_components mem
  ⟨inside.1, inside.2.1, fun nul => no_nul (inside.2.2 _ nul), not_here, not_above⟩

theorem components_trimStart (path : String) : components (trimStart path) = components path := by
  have drop : ∀ s : List Char, (fields (s.dropWhile (· == '/'))).filter (· ≠ []) =
      (fields s).filter (· ≠ []) := by
    intro s
    induction s with
    | nil => rfl
    | cons c rest ih =>
      by_cases slash : c = '/'
      · rw [List.dropWhile_cons_of_pos (by simpa using slash), ih]
        simp [fields, slash]
      · rw [List.dropWhile_cons_of_neg (by simpa using slash)]
  rw [components, trimStart, String.toList_ofList, drop]
  rfl

end Path

theorem components_rooted (root path : String) :
    Path.components (rooted root path) = Path.components root ++ Path.components path := by
  unfold rooted
  dsimp only
  split
  case isTrue slash =>
    have last : root.toList.getLast? = some '/' := by simpa using slash
    obtain ⟨front, whole⟩ := List.getLast?_eq_some_iff.1 last
    have split : root = String.ofList front ++ "/" := String.toList_injective (by
      rw [whole, String.toList_append, String.toList_ofList]
      rfl)
    have none : Path.components (String.ofList front ++ "/") =
        Path.components (String.ofList front) := by
      have parts := Path.components_append_slash (String.ofList front) ""
      rwa [Path.components_empty, List.append_nil, String.append_empty] at parts
    rw [split, none, Path.components_append_slash, Path.components_trimStart]
  case isFalse => rw [Path.components_append_slash, Path.components_trimStart]

theorem Session.components_resolve (session : Session) (path : String) :
    Path.components (session.resolve path) =
      Path.components session.root ++ Path.components path :=
  components_rooted session.root path

namespace Disk

open TreeStore.Path (Plain)

/-- Where names lead from a directory if nothing stands in the way. -/
def settle : Location → List String → Location
  | place, [] => place
  | place, name :: rest =>
    settle
      (if name = "." then place else if name = ".." then place.dropLast else place ++ [name]) rest

def locate (path : String) : Location := settle [] (Path.components path)

theorem settle_append (place : Location) (front back : List String) :
    settle place (front ++ back) = settle (settle place front) back := by
  induction front generalizing place with
  | nil => rfl
  | cons name rest ih => rw [List.cons_append, settle, ih, settle]

theorem settle_of_plain (place : Location) {names : List String}
    (plain : ∀ name ∈ names, Plain name) : settle place names = place ++ names := by
  induction names generalizing place with
  | nil => simp [settle]
  | cons name rest ih =>
    have first := plain name (by simp)
    rw [settle, if_neg first.not_here, if_neg first.not_above,
      ih _ fun n mem => plain n (List.mem_cons_of_mem _ mem)]
    simp

theorem locate_rooted (root path : String) :
    locate (rooted root path) = settle (locate root) (Path.components path) := by
  rw [locate, components_rooted, settle_append]
  rfl

variable {tree : Tree}

theorem step_eq {place next : Location} {name : String} (h : step tree place name = .ok next) :
    next = settle place [name] := by
  unfold step at h
  simp only [settle]
  split at h
  case isTrue here => rw [if_pos here, Except.ok.inj h]
  case isFalse not_here =>
    rw [if_neg not_here]
    split at h
    case isTrue above => rw [if_pos above, Except.ok.inj h]
    case isFalse not_above =>
      rw [if_neg not_above]
      split at h
      all_goals cases h
      rfl

theorem looked_eq {place : Location} {name : String} {node? : Option Node}
    (h : entry? tree place name = .ok node?) :
    node? = tree.node? (place ++ [name]) ∧ name.utf8ByteSize ≤ nameLimit := by
  unfold entry? at h
  split at h
  · cases h
  · exact ⟨(Except.ok.inj h).symm, by omega⟩

theorem step_directory (wf : tree.WellFormed) {place next : Location} {name : String}
    (start : tree.node? place = some .directory) (h : step tree place name = .ok next) :
    tree.node? next = some .directory := by
  unfold step at h
  split at h
  · cases h
    exact start
  split at h
  · cases h
    exact wf.dropLast start
  split at h
  all_goals cases h
  case h_4 found => exact (looked_eq found).1.symm

theorem enter_eq_settle {place next : Location} {names : List String}
    (h : enter tree place names = .ok next) : next = settle place names := by
  induction names generalizing place with
  | nil => exact (Except.ok.inj h).symm
  | cons name rest ih =>
    rw [enter] at h
    split at h
    case h_1 middle first =>
      rw [ih h, step_eq first]
      rfl
    case h_2 => cases h

theorem enter_directory (wf : tree.WellFormed) {place next : Location} {names : List String}
    (start : tree.node? place = some .directory) (h : enter tree place names = .ok next) :
    tree.node? next = some .directory := by
  induction names generalizing place with
  | nil =>
    cases h
    exact start
  | cons name rest ih =>
    rw [enter] at h
    split at h
    case h_1 middle first => exact ih (step_directory wf start first) h
    case h_2 => cases h

theorem enter_append {place middle : Location} {front : List String}
    (h : enter tree place front = .ok middle) (back : List String) :
    enter tree place (front ++ back) = enter tree middle back := by
  induction front generalizing place with
  | nil =>
    cases h
    rfl
  | cons name rest ih =>
    rw [enter] at h
    rw [List.cons_append, enter]
    split at h
    case h_1 next first => exact ih h
    case h_2 => cases h

theorem enter_append_of_error {place : Location} {front : List String} {error : SystemError}
    (h : enter tree place front = .error error) (back : List String) :
    enter tree place (front ++ back) = .error error := by
  induction front generalizing place with
  | nil => cases h
  | cons name rest ih =>
    rw [enter] at h
    rw [List.cons_append, enter]
    split at h
    case h_1 next first => exact ih h
    case h_2 => exact h

theorem enter_of_directory (wf : tree.WellFormed) {place : Location} {names : List String}
    (plain : ∀ name ∈ names, Plain name) (short : ∀ name ∈ names, name.utf8ByteSize ≤ nameLimit)
    (h : tree.node? (place ++ names) = some .directory) :
    enter tree place names = .ok (place ++ names) := by
  induction names generalizing place with
  | nil => simp [enter]
  | cons name rest ih =>
    have first := plain name (by simp)
    have split : place ++ name :: rest = place ++ [name] ++ rest := by simp
    have next : tree.node? (place ++ [name]) = some .directory := by
      rcases eq_or_ne rest [] with rfl | more
      · exact h
      · rw [split] at h
        exact wf.above more (by rw [h]; rfl)
    have passed : step tree place name = .ok (place ++ [name]) := by
      rw [step, if_neg first.not_here, if_neg first.not_above, entry?,
        if_neg (Nat.not_lt.2 (short name (by simp))), next]
    rw [enter, passed, split]
    exact ih (fun n mem => plain n (List.mem_cons_of_mem _ mem))
      (fun n mem => short n (List.mem_cons_of_mem _ mem)) (split ▸ h)

theorem enter_of_missing {place : Location} {names : List String}
    (plain : ∀ name ∈ names, Plain name) (short : ∀ name ∈ names, name.utf8ByteSize ≤ nameLimit)
    (open_way : ∀ front, front <+: names → ∀ content,
      tree.node? (place ++ front) ≠ some (.file content))
    (h : tree.node? (place ++ names) = none) (some : names ≠ []) :
    enter tree place names = .error .noEntry := by
  induction names generalizing place with
  | nil => exact absurd rfl some
  | cons name rest ih =>
    have first := plain name (by simp)
    have looked : entry? tree place name = .ok (tree.node? (place ++ [name])) := by
      unfold entry?
      exact if_neg (Nat.not_lt.2 (short name (by simp)))
    rw [enter, step, if_neg first.not_here, if_neg first.not_above, looked]
    cases found : tree.node? (place ++ [name]) with
    | none => rfl
    | some node =>
      cases node with
      | file content =>
        exact absurd found (open_way [name] (by simp) content)
      | directory =>
        have more : rest ≠ [] := by
          rintro rfl
          rw [found] at h
          cases h
        refine ih (fun n mem => plain n (List.mem_cons_of_mem _ mem))
          (fun n mem => short n (List.mem_cons_of_mem _ mem)) (fun front pre content => ?_)
          (by simpa using h) more
        simpa using open_way (name :: front) (List.cons_prefix_cons.2 ⟨rfl, pre⟩) content

theorem step_mono {tree' : Tree} {place next : Location} {name : String}
    (kept : tree.node? next = some .directory → tree'.node? next = some .directory)
    (h : step tree place name = .ok next) : step tree' place name = .ok next := by
  unfold step at h ⊢
  split at h
  case isTrue here => rwa [if_pos here]
  case isFalse not_here =>
    rw [if_neg not_here]
    split at h
    case isTrue above => rwa [if_pos above]
    case isFalse not_above =>
      rw [if_neg not_above]
      split at h
      case h_4 found =>
        obtain ⟨directory, short⟩ := looked_eq found
        cases h
        unfold entry?
        rw [if_neg (Nat.not_lt.2 short), kept directory.symm]
      all_goals cases h

/-- Where no directory is missing, the same way can be gone. -/
theorem enter_mono {tree tree' : Tree}
    (kept : ∀ place, tree.node? place = some .directory → tree'.node? place = some .directory)
    {place next : Location} {names : List String} (h : enter tree place names = .ok next) :
    enter tree' place names = .ok next := by
  induction names generalizing place with
  | nil => exact h
  | cons name rest ih =>
    rw [enter] at h ⊢
    split at h
    case h_2 => cases h
    case h_1 middle passed =>
      rw [step_mono (kept middle) passed]
      exact ih h

theorem enter_along {tree tree' : Tree} {place next : Location} {names : List String}
    (down : ".." ∉ names) (kept : ∀ other, other <+: next → tree'.node? other = tree.node? other)
    (h : enter tree place names = .ok next) :
    place <+: next ∧ enter tree' place names = .ok next := by
  induction names generalizing place with
  | nil =>
    cases h
    exact ⟨List.prefix_rfl, rfl⟩
  | cons name rest ih =>
    obtain ⟨other, down⟩ := not_or.1 (List.mem_cons.not.1 down)
    rw [enter] at h ⊢
    split at h
    case h_2 => cases h
    case h_1 middle passed =>
      obtain ⟨leads, later⟩ := ih down h
      have first : place <+: middle := by
        rw [step_eq passed, settle, settle, if_neg (Ne.symm other)]
        split
        · exact List.prefix_rfl
        · exact List.prefix_append _ _
      rw [step_mono (fun directory => (kept middle leads).trans directory) passed]
      exact ⟨first.trans leads, later⟩

theorem ofPath_eq_ok {path : String} {route : Route} (h : Route.ofPath path = .ok route) :
    hasNul path = false ∧ path.utf8ByteSize < pathLimit ∧
      route = ⟨Path.components path, path.toList.getLast? == some '/'⟩ := by
  unfold Route.ofPath at h
  split at h
  · cases h
  split at h
  · cases h
  case isFalse.isFalse nul long =>
    exact ⟨by simpa using nul, Nat.not_le.1 long, (Except.ok.inj h).symm⟩

theorem route_of_target {path : String} {reached : Target} (h : target tree path = .ok reached) :
    ∃ route, Route.ofPath path = .ok route ∧ route.target tree = .ok reached := by
  cases read : Route.ofPath path with
  | error e => simp [target, read, bind, Except.bind] at h
  | ok route =>
    refine ⟨route, rfl, ?_⟩
    simpa [target, read, bind, Except.bind] using h

theorem target_of_route {path : String} {route : Route} (read : Route.ofPath path = .ok route) :
    target tree path = route.target tree := by
  rw [target, read]
  rfl

theorem target_mono {tree' : Tree} {path : String} {reached : Target}
    (kept : ∀ place, tree.node? place = some .directory → tree'.node? place = some .directory)
    (h : target tree path = .ok reached) : target tree' path = .ok reached := by
  obtain ⟨route, read, h⟩ := route_of_target h
  rw [target_of_route read]
  unfold Route.target at h ⊢
  split at h
  case h_2 => cases h
  case h_1 directory entered =>
    rw [enter_mono kept entered]
    exact h

theorem length_of_target {path : String} {reached : Target} (h : target tree path = .ok reached) :
    path.utf8ByteSize < pathLimit := by
  obtain ⟨route, read, -⟩ := route_of_target h
  exact (ofPath_eq_ok read).2.1

theorem slot_of_target {path : String} {reached : Target} {slot : Slot} {refusal : SystemError}
    (h : target tree path = .ok reached) (looked : reached.slot tree refusal = .ok slot) :
    ∃ name, Plain name ∧ name.utf8ByteSize ≤ nameLimit ∧
      locate path = reached.directory ++ [name] ∧ slot = ⟨locate path, tree.node? (locate path)⟩ ∧
      (tree.WellFormed → tree.node? reached.directory = some .directory) := by
  obtain ⟨route, read, h⟩ := route_of_target h
  obtain ⟨nul, -, rfl⟩ := ofPath_eq_ok read
  have no_nul : '\x00' ∉ path.toList := by simpa [hasNul] using nul
  unfold Route.target at h
  split at h
  case h_2 => cases h
  case h_1 directory entered =>
    cases h
    dsimp only at entered looked ⊢
    cases names : Path.components path using List.reverseRecOn with
    | nil =>
      simp [Target.slot, names, Last.ofName?] at looked
    | append_singleton front name =>
      rw [names, List.dropLast_concat] at entered
      have inside : name ∈ Path.components path := by rw [names]; simp
      simp only [Target.slot, names, List.getLast?_concat, Last.ofName?] at looked
      split at looked
      case h_2 => cases looked
      case h_1 last eq =>
        split at eq
        · cases eq
        split at eq
        · cases eq
        case isFalse.isFalse not_here not_above =>
        obtain rfl := Last.named.inj eq
        have plain := Path.plain_of_mem_components inside no_nul not_here not_above
        have place : locate path = directory ++ [name] := by
          rw [locate, names, settle_append, ← enter_eq_settle entered,
            settle_of_plain _ (by simpa using plain)]
        split at looked
        case h_2 => cases looked
        case h_1 node? found =>
          obtain ⟨rfl, short⟩ := looked_eq found
          refine ⟨name, plain, short, place, ?_, fun wf =>
            enter_directory wf (Tree.node?_root tree) entered⟩
          rw [place, ← Except.ok.inj looked]

def Reaches (session : Session) (path : String) : Prop :=
  (session.resolve path).utf8ByteSize < pathLimit

/-- Names that the disk takes as a path of a session: none is too long, nor all together. -/
structure Fits (session : Session) (names : List String) : Prop where
  name : ∀ name ∈ names, name.utf8ByteSize ≤ nameLimit
  path : Reaches session (Path.ofNames names)

instance (session : Session) (path : String) : Decidable (Reaches session path) :=
  inferInstanceAs (Decidable ((session.resolve path).utf8ByteSize < pathLimit))

instance (session : Session) (names : List String) : Decidable (Fits session names) :=
  decidable_of_iff ((∀ name ∈ names, name.utf8ByteSize ≤ nameLimit) ∧
      Reaches session (Path.ofNames names))
    ⟨fun ⟨name, path⟩ => ⟨name, path⟩, fun ⟨name, path⟩ => ⟨name, path⟩⟩

end Disk

namespace Session

open Disk

def seat (session : Session) : Location := locate session.root

def place (session : Session) (names : List String) : Location := session.seat ++ names

/-- The root of a session is a directory that the disk can go to. -/
structure Seated (session : Session) (tree : Tree) : Prop where
  no_nul : hasNul session.root = false
  entered : enter tree [] (Path.components session.root) = .ok session.seat

instance (session : Session) (tree : Tree) : Decidable (session.Seated tree) :=
  decidable_of_iff (hasNul session.root = false ∧
      enter tree [] (Path.components session.root) = .ok session.seat)
    ⟨fun ⟨no_nul, entered⟩ => ⟨no_nul, entered⟩, fun seated => ⟨seated.no_nul, seated.entered⟩⟩

theorem locate_resolve {names : List String} (plain : ∀ name ∈ names, Path.Plain name)
    (session : Session) :
    locate (session.resolve (Path.ofNames names)) = session.place names := by
  rw [resolve, locate_rooted, Path.components_ofNames plain, settle_of_plain _ plain]
  rfl

theorem components_resolve_cons {rest : List String} (plain : ∀ name ∈ rest, Path.Plain name)
    (session : Session) (base : String) :
    Path.components (session.resolve (Path.ofNames (base :: rest))) =
      Path.components (session.resolve base) ++ rest := by
  rw [components_resolve, components_resolve, Path.components_ofNames_cons plain, List.append_assoc]

theorem locate_resolve_cons {rest : List String} (plain : ∀ name ∈ rest, Path.Plain name)
    (session : Session) (base : String) :
    locate (session.resolve (Path.ofNames (base :: rest))) = locate (session.resolve base) ++ rest := by
  rw [locate, components_resolve_cons plain, settle_append, settle_of_plain _ plain]
  rfl

/-- What stands in front of a path that is taken from the root of a session. -/
def stem (session : Session) : String :=
  if session.root.toList.getLast? == some '/' then session.root else session.root ++ "/"

theorem resolve_ofNames {names : List String} (plain : ∀ name ∈ names, Path.Plain name)
    (session : Session) : session.resolve (Path.ofNames names) = session.stem ++ Path.ofNames names := by
  unfold resolve rooted stem
  dsimp only
  rw [Path.trimStart_ofNames plain]
  split <;> rfl

theorem toList_resolve {names : List String} {name : String}
    (plain : ∀ name ∈ names, Path.Plain name) (last : Path.Plain name) (session : Session) :
    (session.resolve (Path.ofNames (names ++ [name]))).toList.getLast? ≠ some '/' ∧
      ('\x00' ∈ (session.resolve (Path.ofNames (names ++ [name]))).toList ↔
        '\x00' ∈ session.root.toList) := by
  have all : ∀ n ∈ names ++ [name], Path.Plain n := fun n mem =>
    (List.mem_append.1 mem).elim (plain n) fun mem => List.mem_singleton.1 mem ▸ last
  have nul := Path.nul_notMem_ofNames all
  have stop : (Path.ofNames (names ++ [name])).toList.getLast? ≠ some '/' :=
    Path.getLast?_ofNames last ▸ Path.getLast?_ne_slash last
  cases chars : (Path.ofNames (names ++ [name])).toList using List.reverseRecOn with
  | nil => exact absurd (String.toList_eq_nil_iff.1 chars) (Path.ofNames_ne_empty all (by simp))
  | append_singleton front c =>
    rw [chars] at nul stop
    unfold resolve rooted
    dsimp only
    rw [Path.trimStart_ofNames all]
    split
    · simp_all [String.toList_append]
    · simp_all [String.toList_append, List.getLast?_cons]

theorem hasNul_resolve {names : List String} {name : String}
    (plain : ∀ name ∈ names, Path.Plain name) (last : Path.Plain name) (session : Session) :
    hasNul (session.resolve (Path.ofNames (names ++ [name]))) = hasNul session.root := by
  simp only [hasNul, List.contains_eq_mem, (toList_resolve plain last session).2]

/-- The disk goes along the root of a session and then through all names of a plain path but the
last. -/
theorem target_eq {session : Session} {tree : Tree} {names : List String} {name : String}
    (plain : ∀ name ∈ names, Path.Plain name) (last : Path.Plain name)
    (fits : Fits session (names ++ [name])) :
    target tree (session.resolve (Path.ofNames (names ++ [name]))) =
      if hasNul session.root then .error .nulInName
      else
        match enter tree [] (Path.components session.root ++ names) with
        | .ok directory => .ok ⟨directory, .named name, false⟩
        | .error error => .error (.ofSystem error) := by
  have all : ∀ n ∈ names ++ [name], Path.Plain n := fun n mem =>
    (List.mem_append.1 mem).elim (plain n) fun mem => List.mem_singleton.1 mem ▸ last
  have stop := (toList_resolve plain last session).1
  have parts : Path.components (session.resolve (Path.ofNames (names ++ [name]))) =
      Path.components session.root ++ names ++ [name] := by
    rw [components_resolve, Path.components_ofNames all, List.append_assoc]
  have slash : ((session.resolve (Path.ofNames (names ++ [name]))).toList.getLast? ==
      some '/') = false := by
    simpa using stop
  have same := hasNul_resolve plain last session
  split
  case isTrue with_nul =>
    rw [target, Route.ofPath, same, if_pos with_nul]
    rfl
  case isFalse no_nul =>
    have read : Route.ofPath (session.resolve (Path.ofNames (names ++ [name]))) =
        .ok ⟨Path.components session.root ++ names ++ [name], false⟩ := by
      rw [Route.ofPath, same, if_neg no_nul, if_neg (Nat.not_le.2 fits.path), parts, slash]
    rw [target_of_route read, Route.target, List.dropLast_concat, List.getLast?_concat]
    cases enter tree [] (Path.components session.root ++ names) with
    | ok directory => simp only [Last.ofName?, if_neg last.not_here, if_neg last.not_above]
    | error error => rfl

theorem target_resolve {session : Session} {tree : Tree} {names : List String} {name : String}
    (seated : session.Seated tree) (plain : ∀ name ∈ names, Path.Plain name)
    (last : Path.Plain name) (fits : Fits session (names ++ [name])) :
    target tree (session.resolve (Path.ofNames (names ++ [name]))) =
      match enter tree session.seat names with
      | .ok directory => .ok ⟨directory, .named name, false⟩
      | .error error => .error (.ofSystem error) := by
  rw [target_eq plain last fits, seated.no_nul, if_neg (by decide), enter_append seated.entered]

/-- Where the root of a session is not to be found, all paths below it fail alike. -/
theorem seated_or_lost (session : Session) (tree : Tree) : session.Seated tree ∨
    ∃ fault, ∀ names name, (∀ n ∈ names, Path.Plain n) → Path.Plain name →
      Fits session (names ++ [name]) →
      target tree (session.resolve (Path.ofNames (names ++ [name]))) = .error fault := by
  by_cases nul : hasNul session.root = true
  · refine .inr ⟨.nulInName, fun names name plain last fits => ?_⟩
    rw [target_eq plain last fits, if_pos nul]
  cases entered : enter tree [] (Path.components session.root) with
  | ok seat =>
    obtain rfl : seat = session.seat := enter_eq_settle entered
    exact .inl ⟨by simpa using nul, entered⟩
  | error error =>
    refine .inr ⟨.ofSystem error, fun names name plain last fits => ?_⟩
    rw [target_eq plain last fits, if_neg nul, enter_append_of_error entered]

end Session

end TreeStore
