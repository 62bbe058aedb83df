import TreeStore.Proofs.Effect
/-!
Walks that act on what they visit, and the purge of a directory: under any rules it removes nothing
but what lies below it.
-/
namespace TreeStore

open Footprint

section Walks

variable {scene : Scene} {session : Session} {footprint : Footprint}

theorem mem_of_list {tree : Tree} {path : String} {entries : List Disk.Entry}
    (h : Disk.list tree path = .ok entries) :
    ∃ place, ∀ entry ∈ entries, (tree.find? (place ++ [entry.name])).isSome := by
  obtain ⟨⟨place, node⟩, -, h⟩ := Disk.ok_of_bind h
  dsimp only at h
  split at h
  case isFalse => cases h
  case isTrue =>
    refine ⟨place, fun entry mem => ?_⟩
    rw [← Except.ok.inj h] at mem
    obtain ⟨⟨name, found⟩, child, rfl⟩ := List.mem_map.1 mem
    rw [Tree.mem_children_iff.1 child]
    rfl

theorem next?_ends (accepts : String → Bool) (directory : String) (rest : List String)
    (tree : Tree) :
    Ends scene tree (Walk.next? ⟨session, accepts, directory :: rest⟩) fun answer tree' =>
      tree' = tree ∧ ∀ found, answer = .ok found → ∃ entries : List Disk.Entry,
        (∀ entry ∈ entries, ∃ place, (tree.find? (place ++ [entry.name])).isSome) ∧
        found = some (Walk.visit accepts directory entries, ⟨session, accepts,
          (Walk.visit accepts directory entries).subdirectories.reverse ++ rest⟩) := by
  refine (list_ends scene tree session directory).bind fun answer tree' ⟨same, listed⟩ => ?_
  cases answer with
  | error error => exact .pure ⟨same, fun _ eq => nomatch eq⟩
  | ok entries =>
    refine .pure ⟨same, fun found eq => ⟨entries, ?_, (Except.ok.inj eq).symm⟩⟩
    obtain ⟨order, arranged⟩ := listed entries rfl
    cases stands : Disk.list tree (session.resolve directory) with
    | error error =>
      rw [stands] at arranged
      cases arranged
    | ok plain =>
      rw [stands] at arranged
      obtain ⟨place, known⟩ := mem_of_list stands
      intro entry mem
      rw [← Except.ok.inj arranged, Disk.Order.mem_arrange] at mem
      exact ⟨place, known entry mem⟩

/-- A walk goes on from a directory to the directories in it. What holds before each visit holds
at the end. -/
theorem foldWithin_ends {σ : Type} {f : σ → Visit → Operation σ} (accepts : String → Bool)
    (holds : Tree → List String → σ → Prop) (fails : StoreError → Tree → Prop)
    (refused : ∀ tree pending state error, holds tree pending state →
      fails (.transport error) tree)
    (each : ∀ tree directory rest state entries, holds tree (directory :: rest) state →
      (∀ entry ∈ entries, ∃ place, (tree.find? (place ++ [entry.name])).isSome) →
      Ends scene tree (f state (Walk.visit accepts directory entries)) (Outcome
        (fun state' tree' => holds tree'
          ((Walk.visit accepts directory entries).subdirectories.reverse ++ rest) state')
        fails))
    (bound : Nat) (pending : List String) (state : σ) (tree : Tree)
    (start : holds tree pending state) :
    Ends scene tree (Walk.foldWithin f bound ⟨session, accepts, pending⟩ state)
      (Outcome (fun state' tree' => ∃ pending', holds tree' pending' state') fails) := by
  induction bound generalizing pending state tree with
  | zero => exact .ok ⟨pending, start⟩
  | succ bound ih =>
    cases pending with
    | nil => exact .ok ⟨[], start⟩
    | cons directory rest =>
      refine (next?_ends accepts directory rest tree).transported
        (fun found tree' ⟨same, listed⟩ => ?_) fun error tree' ⟨same, _⟩ => ?_
      · subst same
        obtain ⟨entries, known, rfl⟩ := listed found rfl
        refine (each tree' directory rest state entries start known).andThen
          (fun state' later done => ih _ state' later done) fun error later done => done
      · subst same
        exact refused tree' _ state error start

theorem fold_ends {σ : Type} {f : σ → Visit → Operation σ} (accepts : String → Bool)
    (holds : Tree → List String → σ → Prop) (fails : StoreError → Tree → Prop)
    (refused : ∀ tree pending state error, holds tree pending state →
      fails (.transport error) tree)
    (each : ∀ tree directory rest state entries, holds tree (directory :: rest) state →
      (∀ entry ∈ entries, ∃ place, (tree.find? (place ++ [entry.name])).isSome) →
      Ends scene tree (f state (Walk.visit accepts directory entries)) (Outcome
        (fun state' tree' => holds tree'
          ((Walk.visit accepts directory entries).subdirectories.reverse ++ rest) state')
        fails))
    (base : String) (state : σ) (tree : Tree) (start : holds tree [base] state) :
    Ends scene tree ((Walk.start session base accepts).fold f state)
      (Outcome (fun state' tree' => ∃ pending, holds tree' pending state') fails) := by
  refine (visitBound_ends scene tree).lifted fun bound tree' ⟨_, same⟩ => ?_
  subst same
  exact foldWithin_ends accepts holds fails refused each bound [base] state tree' start

def Below (top path : String) : Prop :=
  ∃ rest : List String, (∀ name ∈ rest, Path.Plain name) ∧ path = Path.ofNames (top :: rest)

theorem Below.child {top path name : String} (below : Below top path) (plain : Path.Plain name) :
    Below top (Path.child path name) := by
  obtain ⟨rest, all, rfl⟩ := below
  refine ⟨rest ++ [name], fun n mem => ?_, ?_⟩
  · rcases List.mem_append.1 mem with mem | mem
    · exact all n mem
    · exact List.mem_singleton.1 mem ▸ plain
  · rw [← Path.ofNames_concat]
    rfl

theorem Ends.covered {α : Type} {tree start : Tree} {call : Action (Except CallError α)}
    (covers : footprint.Covers start tree)
    (any : Ends scene tree call fun _ _ => True)
    (h : footprint.apt start → Ends scene tree call (footprint.Called tree)) :
    Ends scene tree call fun _ tree' => footprint.Covers start tree' := by
  by_cases apt : footprint.apt start
  · refine (h apt).mono fun answer tree' done => covers.trans ?_
    cases answer with
    | ok value => exact done.of_ok
    | error error => exact .of_eq done.of_error
  · exact any.mono fun _ _ _ apt' => absurd apt' apt

theorem removeFiles_ends (start : Tree) (directory : String) (files : List Disk.Entry)
    (tree : Tree) (covers : footprint.Covers start tree)
    (may : footprint.apt start → ∀ file ∈ files, footprint.allowed
      (.removeFile (Disk.locate (session.resolve (Path.child directory file.name))))) :
    Ends scene tree (ConnectionId.removeFiles session directory files)
      (footprint.Rough start) := by
  induction files generalizing tree with
  | nil => exact .ok (.ok covers ())
  | cons file files ih =>
    have removed := Ends.covered covers
      ((change_ends scene tree session _ _).mono fun _ _ _ => True.intro)
      fun apt => removeFile_ends scene tree session _ fun _ => may apt file (by simp)
    refine removed.transported (fun _ tree' covers' => ?_) fun error _ covers' => ?_
    · exact ih tree' covers' fun apt other mem => may apt other (List.mem_cons_of_mem _ mem)
    · exact .failed covers' error

theorem removeDirectories_ends (start : Tree) (paths : List String) (tree : Tree)
    (covers : footprint.Covers start tree)
    (may : footprint.apt start → ∀ path ∈ paths,
      footprint.allowed (.removeDirectory (Disk.locate (session.resolve path)))) :
    Ends scene tree (ConnectionId.removeDirectories session paths) (footprint.Rough start) := by
  induction paths generalizing tree with
  | nil => exact .ok (.ok covers ())
  | cons path paths ih =>
    have removed := Ends.covered covers
      ((change_ends scene tree session _ _).mono fun _ _ _ => True.intro)
      fun apt => removeDirectory_ends scene tree session _ fun _ => may apt path (by simp)
    refine removed.transported (fun _ tree' covers' => ?_) fun error _ covers' => ?_
    · exact ih tree' covers' fun apt other mem => may apt other (List.mem_cons_of_mem _ mem)
    · exact .failed covers' error

/-- The state of a purge between two visits. -/
structure Purging (footprint : Footprint) (start : Tree) (top : String) (tree : Tree)
    (pending visited : List String) : Prop where
  covers : footprint.Covers start tree
  pending : footprint.apt start → ∀ path ∈ pending, Below top path
  visited : footprint.apt start → ∀ path ∈ visited, Below top path ∧ path ≠ top

def RemovesBelow (footprint : Footprint) (session : Session) (top : String) : Prop :=
  ∀ rest, rest ≠ [] → (∀ name ∈ rest, Path.Plain name) →
    footprint.allowed (.removeFile (Disk.locate (session.resolve (Path.ofNames (top :: rest))))) ∧
    footprint.allowed
      (.removeDirectory (Disk.locate (session.resolve (Path.ofNames (top :: rest)))))

theorem Purging.visit {start tree : Tree} {top directory : String} {rest visited : List String}
    {entries : List Disk.Entry} {visit : Visit}
    (held : Purging footprint start top tree (directory :: rest) visited)
    (seen : visit = Walk.visit (fun _ => true) directory entries)
    (may : RemovesBelow footprint session top)
    (listed : ∀ entry ∈ entries, ∃ place, (tree.find? (place ++ [entry.name])).isSome) :
    Ends scene tree (do
        ConnectionId.removeFiles session visit.directory visit.files
        pure (if visit.directory = top then visited else visit.directory :: visited) :
          Operation (List String))
      (Outcome
        (fun visited' tree' =>
          Purging footprint start top tree' (visit.subdirectories.reverse ++ rest) visited')
        fun error tree' => footprint.Covers start tree' ∧ error.IsTransport) := by
  subst seen
  have below := fun apt => held.pending apt directory (by simp)
  have plain : footprint.apt start → ∀ entry ∈ entries, Path.Plain entry.name := by
    intro apt entry mem
    obtain ⟨place, present⟩ := listed entry mem
    exact (footprint.wellFormed tree (held.covers apt).2).plain place entry.name present
  have files : footprint.apt start → ∀ file ∈ entries.filter (!·.isDirectory), footprint.allowed
      (.removeFile (Disk.locate (session.resolve (Path.child directory file.name)))) := by
    intro apt file mem
    have name := plain apt file (List.mem_filter.1 mem).1
    obtain ⟨names, all, eq⟩ := below apt
    have inside : ∀ n ∈ names ++ [file.name], Path.Plain n := fun n mem =>
      (List.mem_append.1 mem).elim (all n) fun mem => List.mem_singleton.1 mem ▸ name
    have path : Path.child directory file.name = Path.ofNames (top :: (names ++ [file.name])) := by
      rw [eq, ← Path.ofNames_concat]
      rfl
    exact path ▸ (may _ (by simp) inside).1
  refine (removeFiles_ends start directory _ tree held.covers files).andThen
    (fun _ later done => .ok ⟨done.covers, fun apt path mem => ?_, fun apt path mem => ?_⟩)
    fun error later done => ⟨done.covers, done.fails error rfl⟩
  · rcases List.mem_append.1 mem with mem | mem
    · have listed := (List.mem_filter.1 (List.mem_reverse.1 mem)).1
      obtain ⟨entry, found, rfl⟩ := List.mem_map.1 listed
      exact (below apt).child (plain apt entry (List.mem_filter.1 found).1)
    · exact held.pending apt path (List.mem_cons_of_mem _ mem)
  -- The directory that the purge begins with is visited, but is not to be removed.
  · split at mem
    · exact held.visited apt path mem
    case isFalse other =>
      rcases List.mem_cons.1 mem with rfl | mem
      · exact ⟨below apt, other⟩
      · exact held.visited apt path mem

theorem purge_ends {id : ConnectionId} (shows : scene.Shows id (some session)) (top : String)
    (tree : Tree) (may : RemovesBelow footprint session top) :
    Ends scene tree (id.purge top) (footprint.Atomic tree) := by
  refine .live shows (Ends.rough ?_)
  have start : Purging footprint tree top tree [top] [] := by
    refine ⟨.refl tree, fun _ path mem => ?_, fun _ _ mem => nomatch mem⟩
    exact ⟨[], by simp, List.mem_singleton.1 mem⟩
  refine (fold_ends (fun _ => true) (Purging footprint tree top)
    (fun error later => footprint.Covers tree later ∧ error.IsTransport)
    (fun _ _ _ error held => ⟨held.covers, error, rfl⟩)
    (fun _ _ _ _ _ held listed => held.visit rfl may listed) top [] tree start).andThen
    (fun directories later ⟨pending, held⟩ => ?_) fun error later failed => ?_
  · refine removeDirectories_ends tree directories later held.covers fun apt path mem => ?_
    obtain ⟨⟨rest, plain, rfl⟩, other⟩ := held.visited apt path mem
    refine (may rest ?_ plain).2
    rintro rfl
    exact other rfl
  · refine ⟨failed.1, fun _ eq => ?_⟩
    cases eq
    exact failed.2

end Walks

end TreeStore
