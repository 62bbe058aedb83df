import TreeStore.Proofs.Writing
/-!
Where no rule makes anything fail, a call on a file fails for want of the file or for the length of
its path. Here is what such failures come to for any key: what the disk has done, when an action may
end in more than one way (`Yields`), and which keys are taken for the payload but not for the record
(`onEdge_iff`).
-/
namespace TreeStore

open Layout (Part fileNames fileName)
open TreeStore.Path (Plain)

/-- The disk takes the path of the key's payload, and this path or its last name is as long as it may
be. -/
def OnEdge (session : Session) (name key : String) : Prop :=
  Disk.Fits session (fileNames name key .payload) ∧
    ((fileName key .payload).utf8ByteSize = Disk.nameLimit ∨
      (session.resolve (Path.ofNames (fileNames name key .payload))).utf8ByteSize + 1 =
        Disk.pathLimit)

section Edge

variable {session : Session} {name key : String}

theorem size_fileName (key : String) (part : Part) : (fileName key part).utf8ByteSize =
    (Key.token key).utf8ByteSize + part.suffix.utf8ByteSize := String.utf8ByteSize_append

theorem size_resolve (plain : Plain name) (part : Part) :
    (session.resolve (Path.ofNames (fileNames name key part))).utf8ByteSize =
      session.stem.utf8ByteSize + (Layout.place name key).utf8ByteSize +
        part.suffix.utf8ByteSize := by
  rw [Session.resolve_ofNames fun _ mem => Layout.plain_of_mem_fileNames plain mem,
    ← Layout.place_append_suffix, String.utf8ByteSize_append, String.utf8ByteSize_append,
    Nat.add_assoc]

theorem fits_fileNames_iff (plain : Plain name) (part : Part) :
    Disk.Fits session (fileNames name key part) ↔
      (∀ n ∈ name :: Layout.folders key, n.utf8ByteSize ≤ Disk.nameLimit) ∧
        (Key.token key).utf8ByteSize + part.suffix.utf8ByteSize ≤ Disk.nameLimit ∧
          session.stem.utf8ByteSize + (Layout.place name key).utf8ByteSize +
            part.suffix.utf8ByteSize < Disk.pathLimit := by
  rw [← size_fileName, ← size_resolve plain]
  constructor
  · intro fits
    exact ⟨fun n mem => fits.name n (List.mem_append_left _ mem),
      fits.name _ (by simp [fileNames]), fits.path⟩
  · rintro ⟨names, short, reaches⟩
    refine ⟨fun n mem => ?_, reaches⟩
    rcases List.mem_append.1 mem with mem | mem
    · exact names n mem
    · rw [List.mem_singleton.1 mem]
      exact short

/-- The name of a record is a byte longer than that of its payload. -/
theorem onEdge_iff (plain : Plain name) : OnEdge session name key ↔
    Disk.Fits session (fileNames name key .payload) ∧
      ¬ Disk.Fits session (fileNames name key .record) := by
  have longer : Part.record.suffix.utf8ByteSize = Part.payload.suffix.utf8ByteSize + 1 := by decide
  unfold OnEdge
  refine and_congr_right fun fits => ?_
  rw [fits_fileNames_iff plain] at fits ⊢
  rw [size_fileName, size_resolve plain, longer]
  obtain ⟨names, short, reaches⟩ := fits
  constructor
  · rintro edge ⟨-, short', reaches'⟩
    omega
  · intro unfit
    by_contra apart
    exact unfit ⟨names, by omega, by omega⟩

end Edge

def Yields {α : Type} (scene : Scene) (session : Session) (name : String) (files : Files)
    (action : Action α) (ends : α → Files → Prop) : Prop :=
  ∀ tree, Stores session name tree files → Ends scene tree action fun result later =>
    ∃ files', Stores session name later files' ∧ ends result files'

abbrev Fails {ε α : Type} (scene : Scene) (session : Session) (name : String) (files : Files)
    (action : Action (Except ε α)) (files' : Files) : Prop :=
  Yields scene session name files action fun result later =>
    (∃ error, result = .error error) ∧ later = files'

/-- How an attempt can end: it is done, or it fails and leaves the files. -/
inductive Tried {ε α : Type} (files : Files) (done : α → Files → Prop) : Except ε α → Files → Prop
  | done {value : α} {later : Files} (held : done value later) : Tried files done (.ok value) later
  | failed (error : ε) : Tried files done (.error error) files

section Rules

variable {α β : Type} {scene : Scene} {session : Session} {name : String}
variable {files files' : Files}

theorem Turns.yields {action : Action α} {answer : α} {ends : α → Files → Prop}
    (h : Turns scene session name files action answer files') (done : ends answer files') :
    Yields scene session name files action ends := by
  intro tree stores
  refine (h tree stores).mono fun result later ⟨eq, stores'⟩ => ?_
  subst eq
  exact ⟨files', stores', done⟩

namespace Yields

theorem mono {action : Action α} {ends ends' : α → Files → Prop}
    (h : Yields scene session name files action ends)
    (weaker : ∀ a files', ends a files' → ends' a files') :
    Yields scene session name files action ends' :=
  fun tree stores => (h tree stores).mono fun a _ ⟨files', stores', done⟩ =>
    ⟨files', stores', weaker a files' done⟩

theorem run {action : Action α} {ends : α → Files → Prop}
    (h : Yields scene session name files action ends) {site : Site} (holds : scene.holds site)
    (stores : Stores session name site.disk files) :
    scene.holds (action site).2 ∧ Stores session name (action site).2.disk
        (Files.inTree session name (action site).2.disk) ∧
      ends (action site).1 (Files.inTree session name (action site).2.disk) := by
  obtain ⟨held, files', stores', done⟩ := (h site.disk stores).run site holds rfl
  rw [stores'.inTree_eq]
  exact ⟨held, stores', done⟩

theorem map {action : Action α} {f : α → β} {ends : β → Files → Prop}
    (h : Yields scene session name files action fun a files' => ends (f a) files') :
    Yields scene session name files (f <$> action) ends :=
  fun tree stores => .map (h tree stores)

variable {operation : Operation α} {next : α → Operation β}
variable {middle : Except StoreError α → Files → Prop} {ends : Except StoreError β → Files → Prop}

theorem andThen (first : Yields scene session name files operation middle)
    (rest : ∀ a files', middle (.ok a) files' → Yields scene session name files' (next a) ends)
    (fails : ∀ error files', middle (.error error) files' → ends (.error error) files') :
    Yields scene session name files (operation >>= next : Operation β) ends :=
  fun tree stores => (first tree stores).andThen
    (fun a later ⟨files', stores', done⟩ => rest a files' done later stores')
    fun error _ ⟨files', stores', done⟩ => ⟨files', stores', fails error files' done⟩

theorem lifted {action : Action α} {middle : α → Files → Prop}
    (first : Yields scene session name files action middle)
    (rest : ∀ a files', middle a files' → Yields scene session name files' (next a) ends) :
    Yields scene session name files (liftM action >>= next : Operation β) ends :=
  fun tree stores => (first tree stores).lifted
    fun a later ⟨files', stores', done⟩ => rest a files' done later stores'

theorem live {id : ConnectionId} {next : Session → Operation β}
    (shows : scene.Shows id (some session))
    (rest : Yields scene session name files (next session) ends) :
    Yields scene session name files (id.session >>= next : Operation β) ends :=
  fun tree stores => .live shows (rest tree stores)

theorem ok {a : β} (done : ends (.ok a) files) :
    Yields scene session name files (Pure.pure a : Operation β) ends :=
  fun _ stores => .ok ⟨files, stores, done⟩

theorem throw {error : StoreError} (done : ends (.error error) files) :
    Yields scene session name files (MonadExcept.throw error : Operation β) ends :=
  fun _ stores => .throw ⟨files, stores, done⟩

end Yields

variable {operation : Operation α} {next : α → Operation β}
variable {ends : Except StoreError β → Files → Prop}

theorem Turns.yields_next {a : α}
    (first : Turns scene session name files operation (.ok a) files')
    (rest : Yields scene session name files' (next a) ends) :
    Yields scene session name files (operation >>= next : Operation β) ends := by
  intro tree stores
  refine (first tree stores).andThen (fun value later ⟨eq, stores'⟩ => ?_)
    fun _ _ ⟨eq, _⟩ => nomatch eq
  cases eq
  exact rest later stores'

theorem Fails.yields {ε : Type} {action : Action (Except ε α)} {ends : Except ε α → Files → Prop}
    (fails : Fails scene session name files action files')
    (done : ∀ error, ends (.error error) files') : Yields scene session name files action ends :=
  fails.mono fun _ _ ⟨⟨error, eq⟩, same⟩ => by
    rw [eq, same]
    exact done error

theorem Fails.first (fails : Fails scene session name files operation files')
    (done : ∀ error, ends (.error error) files') :
    Yields scene session name files (operation >>= next : Operation β) ends :=
  fails.andThen (fun _ _ ⟨⟨_, eq⟩, _⟩ => nomatch eq) fun error _ ⟨_, same⟩ => same ▸ done error

theorem Fails.lifted {ε : Type} {call : Action (Except ε α)} {next : Except ε α → Operation β}
    (fails : Fails scene session name files call files')
    (rest : ∀ error, Yields scene session name files' (next (.error error)) ends) :
    Yields scene session name files (liftM call >>= next : Operation β) ends :=
  Yields.lifted fails fun _ _ ⟨⟨error, eq⟩, same⟩ => by
    subst eq same
    exact rest error

end Rules

section Refused

variable {scene : Scene} {session : Session} {id : ConnectionId} {name key : String} {part : Part}
variable {files : Files} {tree tree' : Tree} (plain : Plain name)

include plain

omit plain in
theorem Stores.held_of_node (stores : Stores session name tree files) {node : Node}
    (stands : tree.node? (session.place (fileNames name key part)) = some node) :
    ∃ content, files key part = some content := by
  rw [stores.file] at stands
  obtain ⟨content, held, -⟩ := Option.map_eq_some_iff.1 stands
  exact ⟨content, held⟩

theorem Stores.held_of_find (stores : Stores session name tree files) {place : Location}
    {node : Node} (found : Disk.find tree (session.resolve (Bucket.path ⟨id, name⟩ key part)) =
      .ok (place, node)) : ∃ content, files key part = some content := by
  rw [path_eq] at found
  exact stores.held_of_node
    (Disk.node_of_find (fun _ mem => Layout.plain_of_mem_fileNames plain mem) found)

theorem Stores.held_of_removeFile (stores : Stores session name tree files)
    (removed : Disk.removeFile tree (session.resolve (Bucket.path ⟨id, name⟩ key part)) =
      .ok tree') : ∃ content, files key part = some content := by
  have taken := Disk.removeFile_takes removed
  have spot := @spot_eq session name plain id key part
  rw [Bucket.spot] at spot
  rw [spot] at taken
  cases taken with
  | removeFile file =>
    rw [← Tree.node?_of_ne_nil _ Stores.place_ne_nil] at file
    exact stores.held_of_node file

theorem Stores.fits_of_openWrite (stores : Stores session name tree files) {location : Location}
    (opened : Disk.openWrite tree (session.resolve (Bucket.path ⟨id, name⟩ key part)) true =
      .ok (location, tree')) : Disk.Fits session (fileNames name key part) := by
  have taken := Disk.openWrite_takes stores.shaped.wellFormed opened
  generalize spot : Disk.locate (session.resolve (Bucket.path ⟨id, name⟩ key part)) = place at taken
  cases taken with
  | write _ short parent =>
    exact stores.shaped.fits_of_spot plain spot.symm parent short (Disk.openWrite_accepts opened)

theorem Stores.moved_of_rename (stores : Stores session name tree files) {target : String}
    (renamed : Disk.rename tree (session.resolve (Bucket.path ⟨id, name⟩ key part))
      (session.resolve (Bucket.path ⟨id, name⟩ target part)) = .ok tree') :
    (∃ content, files key part = some content) ∧
      Disk.Fits session (fileNames name target part) ∧
        Stores session name tree' (files.move key target part) := by
  have here := @spot_eq session name plain id key part
  have there := @spot_eq session name plain id target part
  have apart : session.place (fileNames name target part) =
      session.place (name :: Layout.folders target) ++ [fileName target part] := place_fileNames ..
  rw [Bucket.spot] at here there
  have taken := Disk.rename_takes stores.shaped.wellFormed renamed
    (here ▸ stores.shaped.not_directory key part)
  rw [here, there] at taken
  generalize spot : session.place (fileNames name target part) = place at taken
  cases taken with
  | move file _ short parent =>
    rw [← Tree.node?_of_ne_nil _ Stores.place_ne_nil] at file
    obtain ⟨content, held⟩ := stores.held_of_node file
    cases (stores.held held).symm.trans file
    have fits := stores.shaped.fits_of_spot plain (spot.symm.trans there.symm) parent (.inl short)
      (Disk.rename_accepts renamed)
    obtain ⟨rfl, -⟩ := List.append_inj' (spot.symm.trans apart) rfl
    rw [← spot]
    exact ⟨⟨_, held⟩, fits, stores.move held fits parent⟩

theorem openRead_fails (missing : files key part = none) :
    Fails scene session name files (session.openRead (Bucket.path ⟨id, name⟩ key part)) files := by
  intro tree stores
  refine (openRead_ends ..).mono fun answer later ⟨same, opened⟩ => ?_
  subst same
  cases answer with
  | error error => exact ⟨files, stores, ⟨error, rfl⟩, rfl⟩
  | ok source =>
    obtain ⟨whole, read, -⟩ := opened source rfl
    obtain ⟨⟨place, node⟩, found, -⟩ := Disk.ok_of_bind read
    obtain ⟨content, held⟩ := stores.held_of_find plain found
    rw [missing] at held
    cases held

theorem removeFile_fails (missing : files key part = none) :
    Fails scene session name files (session.removeFile (Bucket.path ⟨id, name⟩ key part)) files := by
  intro tree stores
  refine (change_ends ..).mono fun answer later done => ?_
  rcases done with ⟨error, rfl, rfl⟩ | ⟨rfl, removed⟩
  · exact ⟨files, stores, ⟨error, rfl⟩, rfl⟩
  · obtain ⟨content, held⟩ := stores.held_of_removeFile plain removed
    rw [missing] at held
    cases held

theorem openWrite_fails (unfit : ¬ Disk.Fits session (fileNames name key part)) :
    Fails scene session name files (session.openWrite (Bucket.path ⟨id, name⟩ key part)) files := by
  intro tree stores
  refine (openWrite_ends ..).mono fun answer later done => ?_
  rcases done with ⟨error, rfl, rfl⟩ | ⟨writer, rfl, opened⟩
  · exact ⟨files, stores, ⟨error, rfl⟩, rfl⟩
  · exact absurd (stores.fits_of_openWrite plain opened) unfit

theorem rename_fails {target : String}
    (why : files key part = none ∨ ¬ Disk.Fits session (fileNames name target part)) :
    Fails scene session name files (session.rename (Bucket.path ⟨id, name⟩ key part)
      (Bucket.path ⟨id, name⟩ target part)) files := by
  intro tree stores
  refine (change_ends ..).mono fun answer later done => ?_
  rcases done with ⟨error, rfl, rfl⟩ | ⟨rfl, renamed⟩
  · exact ⟨files, stores, ⟨error, rfl⟩, rfl⟩
  · obtain ⟨⟨content, held⟩, fits, -⟩ := stores.moved_of_rename plain renamed
    rcases why with missing | unfit
    · rw [missing] at held
      cases held
    · exact absurd fits unfit

variable (session id key files) in
def making : Footprint where
  apt tree := Stores session name tree files
  allowed := Reach.Allows { folders? := some key } session ⟨id, name⟩
  wellFormed _ stores := stores.shaped.wellFormed
  kept _ _ _ may taken stores := by
    refine ⟨stores.shaped.edit plain may taken, fun key' part => ?_⟩
    rw [taken.frame stores.shaped.wellFormed (Reach.misses plain rfl may fun _ => by
      simp [Reach.named]), stores.file]

variable (shows : scene.Shows id (some session))

include shows

theorem require_fails (missing : files key .payload = none) :
    Fails scene session name files (Bucket.require ⟨id, name⟩ key) files := by
  intro tree stores
  refine (holds_of_contains stores.shaped plain shows key).andThen
    (fun found later ⟨same, holds⟩ => ?_) fun error later ⟨same, _⟩ => ⟨files, same ▸ stores, ⟨error, rfl⟩, rfl⟩
  subst same
  cases found with
  | false => exact .throw ⟨files, stores, ⟨_, rfl⟩, rfl⟩
  | true =>
    obtain ⟨content, stands⟩ := holds rfl
    obtain ⟨content, held⟩ := stores.held_of_node stands
    rw [missing] at held
    cases held

theorem makeDirectories_keeps (stores : Stores session name tree files) :
    Ends scene tree (id.makeDirectories (Path.parent (Bucket.payloadPath ⟨id, name⟩ key)))
      fun _ later => Stores session name later files := by
  have made : Ends scene tree
      (id.makeDirectories (Path.parent (Bucket.payloadPath ⟨id, name⟩ key)))
      ((making session id key files plain).Atomic tree) :=
    makeDirectories_ends shows _ tree fun _ above some short => .makeDirectory rfl above some short
  exact made.mono fun _ _ done => (done.covers stores).2

/-- With the folders of a key or without them, a call does what it does wherever these files are, or
nothing. -/
theorem withDirectories_tried {α : Type} {call : Action (Except CallError α)}
    {done : α → Files → Prop} (tried : Yields scene session name files call (Tried files done)) :
    Yields scene session name files (Bucket.withDirectories ⟨id, name⟩
      (Bucket.payloadPath ⟨id, name⟩ key) call) (Tried files done) := by
  refine tried.lifted fun result files' ended => ?_
  cases ended with
  | done held => exact .ok (.done held)
  | failed error =>
    dsimp only
    split
    · intro tree stores
      refine (makeDirectories_keeps plain shows stores).andThen (fun _ later stores' => ?_)
        fun error later stores' => ⟨files, stores', .failed error⟩
      refine tried.lifted (fun result files' ended => ?_) later stores'
      cases ended with
      | done held => exact .ok (.done held)
      | failed error => exact .throw (.failed _)
    · exact .throw (.failed _)

theorem withDirectories_fails {α : Type} {call : Action (Except CallError α)}
    (fails : Fails scene session name files call files) :
    Fails scene session name files (Bucket.withDirectories ⟨id, name⟩
      (Bucket.payloadPath ⟨id, name⟩ key) call) files := by
  have tried : Yields scene session name files call (Tried files fun _ _ => False) :=
    fails.yields fun error => .failed error
  refine (withDirectories_tried plain shows tried).mono fun result later ended => ?_
  cases ended with
  | done held => exact held.elim
  | failed error => exact ⟨⟨error, rfl⟩, rfl⟩

end Refused

end TreeStore
