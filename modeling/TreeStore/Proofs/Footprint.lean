import TreeStore.Proofs.Action
/-!
What operations may do to a tree, whatever fails. An operation is atomic for a footprint when it
either fails and leaves the tree alone, or makes edits of the footprint and fails with nothing but
a failed call.
-/
namespace TreeStore

def StoreError.IsTransport (error : StoreError) : Prop := ∃ failed, error = .transport failed

/-- Edits, and what a tree must be like for them; they keep it so. -/
structure Footprint where
  apt : Tree → Prop
  allowed : Edit → Prop
  wellFormed : ∀ tree, apt tree → tree.WellFormed
  kept : ∀ edit tree tree', allowed edit → edit.Takes tree tree' → apt tree → apt tree'

namespace Footprint

def boundless : Footprint where
  apt _ := False
  allowed _ := True
  wellFormed _ h := h.elim
  kept _ _ _ _ _ h := h

variable (footprint : Footprint)

def Covers (tree tree' : Tree) : Prop :=
  footprint.apt tree → Tree.EditedBy footprint.allowed tree tree' ∧ footprint.apt tree'

variable {footprint} {tree tree' tree'' : Tree}

theorem Covers.refl (tree : Tree) : footprint.Covers tree tree :=
  fun apt => ⟨.refl _ tree, apt⟩

theorem Covers.of_eq (same : tree' = tree) : footprint.Covers tree tree' := by
  rw [same]
  exact .refl tree

theorem Covers.trans (h : footprint.Covers tree tree') (h' : footprint.Covers tree' tree'') :
    footprint.Covers tree tree'' := by
  intro apt
  obtain ⟨edited, apt'⟩ := h apt
  obtain ⟨edited', apt''⟩ := h' apt'
  exact ⟨edited.trans edited', apt''⟩

theorem Covers.edit (h : footprint.apt tree → ∃ edit, footprint.allowed edit ∧
    edit.Takes tree tree') : footprint.Covers tree tree' := by
  intro apt
  obtain ⟨edit, may, taken⟩ := h apt
  exact ⟨(Tree.EditedBy.refl _ tree).step may taken, footprint.kept edit _ _ may taken apt⟩

variable (footprint)

def Called {ε α : Type} (tree : Tree) (answer : Except ε α) (tree' : Tree) : Prop :=
  (∃ error, answer = .error error) ∧ tree' = tree ∨
    (∃ value, answer = .ok value) ∧ footprint.Covers tree tree'

structure Rough {α : Type} (tree : Tree) (answer : Except StoreError α) (tree' : Tree) :
    Prop where
  covers : footprint.Covers tree tree'
  fails : ∀ error, answer = .error error → error.IsTransport

/-- An error other than a failed call leaves the tree as it was. -/
def Atomic {α : Type} (tree : Tree) (answer : Except StoreError α) (tree' : Tree) : Prop :=
  (∃ error, answer = .error error) ∧ tree' = tree ∨ footprint.Rough tree answer tree'

variable {footprint} {α β : Type}

theorem Called.of_ok {ε : Type} {value : α}
    (h : footprint.Called tree (.ok value : Except ε α) tree') : footprint.Covers tree tree' := by
  rcases h with ⟨⟨_, eq⟩, -⟩ | ⟨-, covers⟩
  · cases eq
  · exact covers

theorem Called.of_error {ε : Type} {error : ε}
    (h : footprint.Called tree (.error error : Except ε α) tree') : tree' = tree := by
  rcases h with ⟨-, same⟩ | ⟨⟨_, eq⟩, -⟩
  · exact same
  · cases eq

theorem Rough.ok (covers : footprint.Covers tree tree') (a : α) :
    footprint.Rough tree (.ok a) tree' :=
  ⟨covers, fun _ eq => nomatch eq⟩

theorem Rough.failed (covers : footprint.Covers tree tree') (failed : CallError) :
    footprint.Rough tree (.error (.transport failed) : Except StoreError α) tree' := by
  refine ⟨covers, fun error eq => ⟨failed, ?_⟩⟩
  cases eq
  rfl

theorem Rough.error {error : StoreError}
    (h : footprint.Rough tree (.error error : Except StoreError α) tree') :
    footprint.Rough tree (.error error : Except StoreError β) tree' :=
  ⟨h.covers, fun _ eq => h.fails _ (congrArg _ (Except.error.inj eq))⟩

theorem Rough.after (h : footprint.Covers tree tree') {answer : Except StoreError α}
    (h' : footprint.Rough tree' answer tree'') : footprint.Rough tree answer tree'' :=
  ⟨h.trans h'.covers, h'.fails⟩

theorem Atomic.covers {answer : Except StoreError α} (h : footprint.Atomic tree answer tree') :
    footprint.Covers tree tree' := by
  rcases h with ⟨-, same⟩ | done
  · exact .of_eq same
  · exact done.covers

theorem Atomic.error {error : StoreError}
    (h : footprint.Atomic tree (.error error : Except StoreError α) tree') :
    footprint.Atomic tree (.error error : Except StoreError β) tree' := by
  rcases h with ⟨-, same⟩ | done
  · exact .inl ⟨⟨error, rfl⟩, same⟩
  · exact .inr done.error

end Footprint

namespace Ends

open Footprint

variable {α β : Type} {scene : Scene} {tree : Tree} {footprint : Footprint}
variable {operation : Operation α} {next : α → Operation β}

theorem look (first : Ends scene tree operation fun _ tree' => tree' = tree)
    (rest : ∀ a, Ends scene tree (next a) (footprint.Atomic tree)) :
    Ends scene tree (operation >>= next : Operation β) (footprint.Atomic tree) := by
  refine first.andThen (fun a tree' same => ?_) fun error tree' same => ?_
  · subst same
    exact rest a
  · exact .inl ⟨⟨error, rfl⟩, same⟩

theorem rough {start : Tree} (h : Ends scene tree operation (footprint.Rough start)) :
    Ends scene tree operation (footprint.Atomic start) :=
  h.mono fun _ _ done => .inr done

theorem rough_after {start : Tree} (covers : footprint.Covers start tree)
    (h : Ends scene tree operation (footprint.Rough tree)) :
    Ends scene tree operation (footprint.Rough start) :=
  h.mono fun _ _ done => done.after covers

theorem atomic_bind (first : Ends scene tree operation (footprint.Atomic tree))
    (rest : ∀ a tree', Ends scene tree' (next a) (footprint.Rough tree')) :
    Ends scene tree (operation >>= next : Operation β) (footprint.Atomic tree) := by
  refine first.andThen (fun a tree' done => ?_) fun error tree' done => done.error
  exact ((rest a tree').rough_after done.covers).rough

theorem rough_bind (first : Ends scene tree operation (footprint.Rough tree))
    (rest : ∀ a tree', Ends scene tree' (next a) (footprint.Rough tree')) :
    Ends scene tree (operation >>= next : Operation β) (footprint.Rough tree) := by
  refine first.andThen (fun a tree' done => ?_) fun error tree' done => done.error
  exact (rest a tree').rough_after done.covers

end Ends

section Calls

open Footprint

variable (scene : Scene) (tree : Tree) {footprint : Footprint} (session : Session) (path : String)

theorem makeDirectory_ends
    (may : Disk.Reaches session path →
      footprint.allowed (.makeDirectory (Disk.locate (session.resolve path)))) :
    Ends scene tree (session.makeDirectory path) (footprint.Called tree) := by
  refine (change_ends ..).mono fun answer tree' done => ?_
  rcases done with ⟨error, rfl, same⟩ | ⟨rfl, done⟩
  · exact .inl ⟨⟨error, rfl⟩, same⟩
  · refine .inr ⟨⟨(), rfl⟩, .edit fun apt => ?_⟩
    exact ⟨_, may (Disk.makeDirectory_accepts done),
      Disk.makeDirectory_takes (footprint.wellFormed tree apt) done⟩

theorem removeFile_ends (may : footprint.apt tree →
      footprint.allowed (.removeFile (Disk.locate (session.resolve path)))) :
    Ends scene tree (session.removeFile path) (footprint.Called tree) := by
  refine (change_ends ..).mono fun answer tree' done => ?_
  rcases done with ⟨error, rfl, same⟩ | ⟨rfl, done⟩
  · exact .inl ⟨⟨error, rfl⟩, same⟩
  · exact .inr ⟨⟨(), rfl⟩, .edit fun apt => ⟨_, may apt, Disk.removeFile_takes done⟩⟩

theorem removeDirectory_ends (may : footprint.apt tree →
      footprint.allowed (.removeDirectory (Disk.locate (session.resolve path)))) :
    Ends scene tree (session.removeDirectory path) (footprint.Called tree) := by
  refine (change_ends ..).mono fun answer tree' done => ?_
  rcases done with ⟨error, rfl, same⟩ | ⟨rfl, done⟩
  · exact .inl ⟨⟨error, rfl⟩, same⟩
  · exact .inr ⟨⟨(), rfl⟩, .edit fun apt => ⟨_, may apt, Disk.removeDirectory_takes done⟩⟩

theorem rename_ends (target : String)
    (may : Disk.Reaches session target → footprint.allowed
      (.move (Disk.locate (session.resolve path)) (Disk.locate (session.resolve target))))
    (no_directory : footprint.apt tree →
      tree.node? (Disk.locate (session.resolve path)) ≠ some .directory) :
    Ends scene tree (session.rename path target) (footprint.Called tree) := by
  refine (change_ends ..).mono fun answer tree' done => ?_
  rcases done with ⟨error, rfl, same⟩ | ⟨rfl, done⟩
  · exact .inl ⟨⟨error, rfl⟩, same⟩
  · refine .inr ⟨⟨(), rfl⟩, .edit fun apt => ⟨_, may (Disk.rename_accepts done), ?_⟩⟩
    exact Disk.rename_takes (footprint.wellFormed tree apt) done (no_directory apt)

structure Session.Writer.Fresh (writer : Session.Writer) (session : Session) (path : String)
    (tree : Tree) : Prop where
  short : Disk.Reaches session path
  location : writer.location = Disk.locate (session.resolve path)
  empty : tree.find? writer.location = some (.file [])

def Footprint.Fills (footprint : Footprint) (session : Session) (path : String) (bytes : Bytes) :
    Prop :=
  Disk.Reaches session path → ∀ content, content <+: bytes →
    footprint.allowed (.write (Disk.locate (session.resolve path)) content)

theorem openFile_ends {bytes : Bytes} (fills : footprint.Fills session path bytes) :
    Ends scene tree (session.openWrite path) fun answer tree' =>
      footprint.Called tree answer tree' ∧
        ∀ writer, answer = .ok writer → writer.Fresh session path tree' := by
  refine (openWrite_ends ..).mono fun answer tree' done => ?_
  rcases done with ⟨error, rfl, same⟩ | ⟨writer, rfl, done⟩
  · exact ⟨.inl ⟨⟨error, rfl⟩, same⟩, fun _ eq => nomatch eq⟩
  · have short := Disk.openWrite_accepts done
    refine ⟨.inr ⟨⟨writer, rfl⟩, .edit fun apt => ?_⟩, fun writer' eq => ?_⟩
    · exact ⟨_, fills short [] List.nil_prefix,
        Disk.openWrite_takes (footprint.wellFormed tree apt) done⟩
    · cases eq
      exact ⟨short, Disk.openWrite_location done, Disk.openWrite_empties done⟩

theorem writer_ends {writer : Session.Writer} (source : Source)
    (fresh : writer.Fresh session path tree) (fills : footprint.Fills session path source.bytes) :
    Ends scene tree (writer.copy source) fun _ tree' => footprint.Covers tree tree' := by
  refine (copy_ends ..).mono fun answer tree' done => ?_
  subst done
  refine .edit fun apt => ⟨_, ?_, Disk.append_takes (footprint.wellFormed tree apt) fresh.empty⟩
  rw [List.nil_append, fresh.location]
  exact fills fresh.short _ (Disk.Source.through_prefix source writer.cut?)

end Calls

end TreeStore
