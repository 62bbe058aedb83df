import TreeStore.Proofs.Clearing
import TreeStore.Proofs.Files
import TreeStore.Proofs.Traversal
/-!
Purging a shaped bucket where no rule makes anything fail: nothing is left but the bucket.
-/
namespace TreeStore

open TreeStore.Path (Plain)

section Emptying

variable {session : Session} {id : ConnectionId} {name : String} {connection : Connection}
variable {order : Disk.Order} {tree : Tree}

theorem Shaped.emptied (shaped : Shaped session name tree) :
    Shaped session name (tree.emptied (session.place [name])) where
  wellFormed := shaped.wellFormed.emptied _
  seated := by
    have same : (tree.emptied (session.place [name])).without (session.place [name]) =
        tree.without (session.place [name]) := by
      apply Tree.without_congr
      intro place outside
      rw [Tree.find?_emptied]
      rintro rest - rfl
      exact outside (List.prefix_append _ _)
    rw [same]
    exact shaped.seated
  top := by
    rw [Tree.node?_emptied_self]
    exact shaped.top
  fits := shaped.fits
  entries rest node some stands := by
    rw [Session.place_cons session name rest, Tree.node?_emptied_below _ _ some] at stands
    cases stands

theorem Shaped.clearable (shaped : Shaped session name tree) (plain : Plain name) :
    session.Clearable tree name (session.place [name]) where
  spans := shaped.spans plain
  apart := (shaped.emptied.spans plain).found

theorem purge_turns {files : Files} (live : connection.slot = some session) (plain : Plain name) :
    Turns (Scene.calm id connection order) session name files (id.purge name) (.ok ())
      Files.none := by
  intro tree stores
  refine (purge_plays (Scene.calm_quiet id connection order) (Scene.calm_listsBy id connection order)
    (Scene.calm_shows_live live order) (stores.shaped.clearable plain)).ends.mono
    fun answer later ⟨_, ⟨eq, same⟩, _⟩ => ⟨eq, ?_⟩
  subst same
  refine ⟨stores.shaped.emptied, fun key part => ?_⟩
  have place : session.place (Layout.fileNames name key part) =
      session.place [name] ++ (Layout.folders key ++ [Layout.fileName key part]) :=
    Session.place_cons ..
  rw [place, Tree.node?_emptied_below _ _ (by simp)]
  rfl

end Emptying

end TreeStore
