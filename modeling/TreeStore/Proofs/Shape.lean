import TreeStore.Proofs.Frame
/-!
What a bucket looks like, from its making on: every directory in it lies on the way to some key, and
every file is the payload or the record of a key. Leftover directories and files without their
partner are allowed. No command breaks this, whatever fails (`Shaped.edit`).
-/
namespace TreeStore

open Layout (Part fileNames fileName)
open TreeStore.Path (Plain)

def Tree.without (tree : Tree) (top : Location) : Tree :=
  tree.filterKeys fun place => (Tree.below? top place).isNone

/-- What may stand in a bucket at the given names. -/
def Layout.Lies : Node → List String → Prop
  | .directory, rest => ∃ key, rest <+: Layout.folders key
  | .file _, rest => ∃ key part, rest = Layout.folders key ++ [fileName key part]

structure Shaped (session : Session) (name : String) (tree : Tree) : Prop where
  wellFormed : tree.WellFormed
  /-- The root of the session is reached without the bucket. -/
  seated : session.Seated (tree.without (session.place [name]))
  top : tree.node? (session.place [name]) = some .directory
  fits : Disk.Fits session [name]
  entries : ∀ rest node, rest ≠ [] → tree.node? (session.place (name :: rest)) = some node →
    Layout.Lies node rest ∧ Disk.Fits session (name :: rest)

section Places

variable {session : Session} {name : String}

theorem Session.place_concat (session : Session) (names : List String) (last : String) :
    session.place (names ++ [last]) = session.place names ++ [last] := by
  simp [Session.place]

theorem Session.place_cons (session : Session) (name : String) (rest : List String) :
    session.place (name :: rest) = session.place [name] ++ rest := by
  simp [Session.place]

theorem Session.place_cons_ne_nil (session : Session) (name : String) (rest : List String) :
    session.place (name :: rest) ≠ [] := by
  simp [Session.place]

theorem Layout.not_lies_directory (key : String) (part : Part) :
    ¬ Layout.Lies .directory (Layout.folders key ++ [fileName key part]) := by
  rintro ⟨key', front⟩
  apply Layout.fileNames_not_prefix_folders "" "" key key' part
  exact List.cons_prefix_cons.2 ⟨rfl, front⟩

theorem Layout.not_lies_file (key : String) {front : List String}
    (above : front <+: Layout.folders key) (content : Bytes) :
    ¬ Layout.Lies (.file content) front := by
  rintro ⟨key', part, rfl⟩
  exact Layout.fileNames_not_prefix_folders "" "" key' key part
    (List.cons_prefix_cons.2 ⟨rfl, above⟩)

theorem Disk.Fits.front {names rest : List String} (fits : Disk.Fits session (names ++ rest))
    (plain : ∀ n ∈ names, Plain n) (more : ∀ n ∈ rest, Plain n) : Disk.Fits session names where
  name n mem := fits.name n (List.mem_append_left rest mem)
  path := by
    have longer := Path.utf8ByteSize_ofNames_le plain more
    have all : ∀ n ∈ names ++ rest, Plain n := fun n mem =>
      (List.mem_append.1 mem).elim (plain n) (more n)
    have path := fits.path
    rw [Disk.Reaches, Session.resolve_ofNames all, String.utf8ByteSize_append] at path
    rw [Disk.Reaches, Session.resolve_ofNames plain, String.utf8ByteSize_append]
    omega

end Places

theorem Tree.without_congr {tree tree' : Tree} {top : Location}
    (same : ∀ place, ¬ top <+: place → tree'.find? place = tree.find? place) :
    tree'.without top = tree.without top := by
  ext place : 1
  unfold without
  rw [SortedMap.find?_filterKeys, SortedMap.find?_filterKeys]
  split
  case isTrue free =>
    refine same place ?_
    rintro ⟨rest, rfl⟩
    rw [Tree.below?_eq_some_iff.2 rfl] at free
    cases free
  case isFalse => rfl

namespace Shaped

variable {session : Session} {name : String} {tree : Tree}

theorem fits_of_directory (shaped : Shaped session name tree) {rest : List String}
    (directory : tree.node? (session.place (name :: rest)) = some .directory) :
    Disk.Fits session (name :: rest) := by
  rcases eq_or_ne rest [] with rfl | some
  · exact shaped.fits
  · exact (shaped.entries rest _ some directory).2

theorem outside_insert (tree : Tree) (rest : List String) (node : Node) :
    Tree.without (SortedMap.insert tree (session.place (name :: rest)) node)
      (session.place [name]) = tree.without (session.place [name]) := by
  apply Tree.without_congr
  intro place outside
  rw [SortedMap.find?_insert, if_neg]
  rintro rfl
  exact outside ⟨rest, (Session.place_cons session name rest).symm⟩

theorem outside_erase (tree : Tree) (rest : List String) :
    Tree.without (SortedMap.erase tree (session.place (name :: rest)))
      (session.place [name]) = tree.without (session.place [name]) := by
  apply Tree.without_congr
  intro place outside
  rw [SortedMap.find?_erase, if_neg]
  rintro rfl
  exact outside ⟨rest, (Session.place_cons session name rest).symm⟩

theorem insert (shaped : Shaped session name tree) {rest : List String} {node : Node}
    (some : rest ≠ []) (lies : Layout.Lies node rest) (fits : Disk.Fits session (name :: rest))
    (wf : Tree.WellFormed (SortedMap.insert tree (session.place (name :: rest)) node)) :
    Shaped session name (SortedMap.insert tree (session.place (name :: rest)) node) where
  wellFormed := wf
  seated := by
    rw [outside_insert]
    exact shaped.seated
  top := by
    rw [Tree.node?_insert _ (Session.place_cons_ne_nil _ _ _), if_neg, shaped.top]
    rw [Session.place_inj, List.cons.injEq]
    exact fun same => some same.2.symm
  fits := shaped.fits
  entries rest' node' some' found := by
    rw [Tree.node?_insert _ (Session.place_cons_ne_nil _ _ _)] at found
    split at found
    case isTrue same =>
      obtain ⟨-, rfl⟩ := List.cons.inj (Session.place_inj.1 same)
      cases found
      exact ⟨lies, fits⟩
    case isFalse => exact shaped.entries rest' node' some' found

theorem erase (shaped : Shaped session name tree) {rest : List String} (some : rest ≠ [])
    (wf : Tree.WellFormed (SortedMap.erase tree (session.place (name :: rest)))) :
    Shaped session name (SortedMap.erase tree (session.place (name :: rest))) where
  wellFormed := wf
  seated := by
    rw [outside_erase]
    exact shaped.seated
  top := by
    rw [Tree.node?_erase _ (Session.place_cons_ne_nil _ _ _), if_neg, shaped.top]
    rw [Session.place_inj, List.cons.injEq]
    exact fun same => some same.2.symm
  fits := shaped.fits
  entries rest' node' some' found := by
    rw [Tree.node?_erase _ (Session.place_cons_ne_nil _ _ _)] at found
    split at found
    case isTrue => cases found
    case isFalse => exact shaped.entries rest' node' some' found

theorem fits_concat (shaped : Shaped session name tree) {rest : List String} {last : String}
    (parent : tree.node? (session.place (name :: rest)) = some .directory)
    (short : last.utf8ByteSize ≤ Disk.nameLimit ∨
      (tree.find? (session.place (name :: (rest ++ [last])))).isSome)
    (path : Disk.Reaches session (Path.ofNames (name :: (rest ++ [last])))) :
    Disk.Fits session (name :: (rest ++ [last])) := by
  refine ⟨fun n mem => ?_, path⟩
  rw [← List.cons_append] at mem
  rcases List.mem_append.1 mem with mem | mem
  · exact (shaped.fits_of_directory parent).name n mem
  · rw [List.mem_singleton.1 mem]
    rcases short with short | present
    · exact short
    · obtain ⟨node, found⟩ := Option.isSome_iff_exists.1 present
      rw [← Tree.node?_of_ne_nil _ (Session.place_cons_ne_nil _ _ _)] at found
      exact (shaped.entries _ node (by simp) found).2.name last (by simp)

end Shaped

section Edits

variable {session : Session} {id : ConnectionId} {name : String} {tree tree' : Tree}
variable {reach : Reach}

theorem Shaped.fits_of_spot (shaped : Shaped session name tree) (plain : Plain name)
    {top : Location} {last key : String} {part : Part}
    (spot : top ++ [last] = Bucket.spot ⟨id, name⟩ session key part)
    (parent : tree.node? top = some .directory)
    (short : last.utf8ByteSize ≤ Disk.nameLimit ∨ (tree.find? (top ++ [last])).isSome)
    (path : Disk.Reaches session (Bucket.path ⟨id, name⟩ key part)) :
    Disk.Fits session (fileNames name key part) := by
  have place : Bucket.spot ⟨id, name⟩ session key part =
      session.place (name :: Layout.folders key) ++ [fileName key part] := by
    rw [spot_eq plain, fileNames, Session.place_concat]
  obtain ⟨rfl, last_eq⟩ := List.append_inj' (spot.trans place) rfl
  obtain rfl := List.singleton_inj.1 last_eq
  rw [Bucket.path, Layout.place_append_suffix] at path
  rw [← Session.place_concat, List.cons_append] at short
  exact shaped.fits_concat parent short path

theorem Shaped.put (shaped : Shaped session name tree) (plain : Plain name) {top : Location}
    {last key : String} {part : Part} {content : Bytes}
    (spot : top ++ [last] = Bucket.spot ⟨id, name⟩ session key part)
    (parent : tree.node? top = some .directory)
    (short : last.utf8ByteSize ≤ Disk.nameLimit ∨ (tree.find? (top ++ [last])).isSome)
    (path : Disk.Reaches session (Bucket.path ⟨id, name⟩ key part))
    (wf : Tree.WellFormed (SortedMap.insert tree (top ++ [last]) (.file content))) :
    Shaped session name (SortedMap.insert tree (top ++ [last]) (.file content)) := by
  have fits := shaped.fits_of_spot plain spot parent short path
  rw [spot, spot_eq plain] at wf ⊢
  exact shaped.insert (by simp) ⟨key, part, rfl⟩ fits wf

theorem Shaped.make (shaped : Shaped session name tree) (plain : Plain name) {top : Location}
    {last key : String} {front : List String} (above : front <+: name :: Layout.folders key)
    (spot : top ++ [last] = session.place front)
    (parent : tree.node? top = some .directory) (absent : tree.find? (top ++ [last]) = none)
    (some : front ≠ []) (short : last.utf8ByteSize ≤ Disk.nameLimit)
    (path : Disk.Reaches session (Path.ofNames front))
    (wf : Tree.WellFormed (SortedMap.insert tree (top ++ [last]) .directory)) :
    Shaped session name (SortedMap.insert tree (top ++ [last]) .directory) := by
  obtain ⟨first, rest, rfl⟩ := List.exists_cons_of_ne_nil some
  obtain ⟨rfl, inner⟩ := List.cons_prefix_cons.1 above
  cases rest using List.reverseRecOn with
  | nil =>
    -- The bucket itself is there already.
    rw [spot, ← Tree.node?_of_ne_nil _ (Session.place_cons_ne_nil _ _ _), shaped.top] at absent
    cases absent
  | append_singleton rest last' =>
    have place := spot.trans (Session.place_concat session (first :: rest) last')
    obtain ⟨rfl, last_eq⟩ := List.append_inj' place rfl
    obtain rfl := List.singleton_inj.1 last_eq
    rw [spot] at wf ⊢
    exact shaped.insert (by simp) ⟨key, inner⟩ (shaped.fits_concat parent (.inl short) path) wf

theorem Shaped.edit (shaped : Shaped session name tree) (plain : Plain name) {edit : Edit}
    (may : reach.Allows session ⟨id, name⟩ edit) (taken : edit.Takes tree tree') :
    Shaped session name tree' := by
  have wf := taken.wellFormed shaped.wellFormed
  cases taken with
  | @makeDirectory _ top last _ short parent absent =>
    generalize spot : top ++ [last] = location at may
    cases may with
    | makeDirectory named above some path =>
      rw [← spot]
      rw [components_parent plain] at above
      rw [locate_folder plain above] at spot
      exact shaped.make plain above spot parent absent some short path wf
  | @write _ top last content _ short parent free =>
    generalize spot : top ++ [last] = location at may
    cases may with
    | write named path =>
      rw [← spot]
      exact shaped.put plain spot parent short path wf
  | @removeFile _ location content file =>
    cases may with
    | @removeFile key part named =>
      rw [spot_eq plain] at wf ⊢
      exact shaped.erase (by simp) wf
    | clearFile named some below =>
      rw [locate_below plain below] at wf ⊢
      exact shaped.erase some wf
  | @removeDirectory _ location directory vacant =>
    cases may with
    | clearDirectory named some below =>
      rw [locate_below plain below] at wf ⊢
      exact shaped.erase some wf
  | @move _ source top last content file _ short parent free =>
    generalize spot : top ++ [last] = location at may
    cases may with
    | @move source target named part path =>
      -- A file that moves is taken away and then put where it goes.
      have gone : Shaped session name
          (SortedMap.erase tree (Bucket.spot ⟨id, name⟩ session source part)) := by
        have wf' := shaped.wellFormed.eraseLeaf fun name =>
          shaped.wellFormed.find?_eq_none_of_below_file file (List.cons_ne_nil name [])
        rw [spot_eq plain] at wf' ⊢
        exact shaped.erase (by simp) wf'
      rw [← spot]
      refine gone.put plain spot ?_ (.inl short) path wf
      have named := Edit.find?_root_of_erase shaped.wellFormed file
      rw [Tree.node?_erase _ named, if_neg, parent]
      rintro rfl
      rw [Tree.node?_of_ne_nil _ named, file] at parent
      cases parent

end Edits

end TreeStore
