import Mathlib.Logic.Function.Basic
import TreeStore.Proofs.Directories
import TreeStore.Proofs.Packed
import TreeStore.Proofs.Unclassified
/-!
Transfers that break off, in a bucket of any name, whatever fails. What a fetch appends to a sink, and
what a store or a copy leaves in the payload file of its key, is a beginning of what is transferred
(`interrupted_transfers_leave_beginnings`). Only the contents of files are followed here: a directory
that is made on the way changes none.
-/
namespace TreeStore

open Layout (Part fileNames fileName)
open Function (update)

def Tree.held (tree : Tree) (place : Location) : Option Bytes :=
  match tree.node? place with
  | some (.file content) => some content
  | _ => none

namespace Tree

variable {tree : Tree} {place : Location} {content : Bytes}

theorem held_of_file (file : tree.node? place = some (.file content)) :
    tree.held place = some content := by
  rw [held, file]

theorem held_of_directory (directory : tree.node? place = some .directory) :
    tree.held place = none := by
  rw [held, directory]

theorem file_of_held (there : tree.held place = some content) :
    tree.node? place = some (.file content) := by
  unfold held at there
  split at there
  case h_1 node =>
    rw [node, Option.some_inj.1 there]
  case h_2 => cases there

theorem held_insert_file (named : place ≠ []) (content : Bytes) :
    Tree.held (SortedMap.insert tree place (.file content)) =
      update tree.held place (some content) := by
  funext other
  rw [held, node?_insert _ named]
  by_cases same : other = place
  · rw [if_pos same, same, Function.update_self]
  · rw [if_neg same, Function.update_of_ne same, held]

theorem held_insert_directory (absent : tree.node? place = none) :
    Tree.held (SortedMap.insert tree place .directory) = tree.held := by
  have named : place ≠ [] := by
    rintro rfl
    cases absent
  funext other
  rw [held, node?_insert _ named]
  by_cases same : other = place
  · rw [if_pos same, same, held, absent]
  · rw [if_neg same, held]

theorem held_append (there : tree.held place = some content) (bytes : Bytes) :
    Tree.held (Disk.append tree place bytes) = update tree.held place (some (content ++ bytes)) := by
  have file := file_of_held there
  have named : place ≠ [] := by
    rintro rfl
    cases file
  rw [Disk.append_of_file ((node?_of_ne_nil tree named).symm.trans file), held_insert_file named]

end Tree

theorem Bucket.spot_eq_append (bucket : Bucket) (session : Session) (key : String) (part : Part) :
    Path.components (session.resolve (bucket.path key part)) =
        (Path.components session.root ++ Path.components bucket.name ++ Layout.folders key) ++
          [fileName key part] ∧
      bucket.spot session key part =
        Disk.settle [] (Path.components session.root ++ Path.components bucket.name ++
          Layout.folders key) ++ [fileName key part] := by
  have plain : ∀ n ∈ Layout.folders key ++ [fileName key part], Path.Plain n := by
    intro n mem
    rcases List.mem_append.1 mem with mem | mem
    · exact Layout.plain_of_mem_folders mem
    · exact List.mem_singleton.1 mem ▸ Layout.plain_fileName key part
  have parts : Path.components (session.resolve (bucket.path key part)) =
      (Path.components session.root ++ Path.components bucket.name ++ Layout.folders key) ++
        [fileName key part] := by
    rw [Session.components_resolve, Bucket.path, Layout.place_append_suffix, fileNames,
      List.cons_append, Path.components_ofNames_cons plain]
    simp only [List.append_assoc]
  refine ⟨parts, ?_⟩
  have last : ∀ n ∈ [fileName key part], Path.Plain n := fun n mem =>
    List.mem_singleton.1 mem ▸ Layout.plain_fileName key part
  rw [Bucket.spot, Disk.locate, parts, Disk.settle_append, Disk.settle_of_plain _ last]

theorem Bucket.spot_payload_ne_record (bucket : Bucket) (session : Session) (key : String) :
    bucket.spot session key .payload ≠ bucket.spot session key .record := by
  rw [(bucket.spot_eq_append session key .payload).2, (bucket.spot_eq_append session key .record).2]
  intro same
  have names := List.singleton_inj.1 (List.append_inj' same rfl).2
  exact nomatch (Layout.fileName_inj names).2

theorem Bucket.held_of_openRead {bucket : Bucket} {session : Session} {key : String} {tree : Tree}
    {whole : Source}
    (opens : Disk.openRead tree (session.resolve (bucket.payloadPath key)) = .ok whole) :
    whole.bytes = (tree.held (bucket.spot session key .payload)).getD [] ∧
      (whole.failure? = none → tree.held (bucket.spot session key .payload) = some whole.bytes) := by
  obtain ⟨⟨place, node⟩, found, opens⟩ := Disk.ok_of_bind opens
  have parts := (bucket.spot_eq_append session key .payload).1
  have plain := Layout.plain_fileName key .payload
  have stands : tree.node? (bucket.spot session key .payload) = some node :=
    Disk.node_of_find_named parts plain.not_here plain.not_above found
  cases node with
  | directory =>
    cases opens
    rw [Tree.held_of_directory stands]
    exact ⟨rfl, fun whole => nomatch whole⟩
  | file content =>
    cases opens
    rw [Tree.held_of_file stands]
    exact ⟨rfl, fun _ => rfl⟩

section Opening

variable {scene : Scene} {id : ConnectionId} {session : Session}

theorem makeDirectory_keeps_held (tree : Tree) (path : String) :
    Ends scene tree (session.makeDirectory path) fun _ tree' => tree'.held = tree.held := by
  refine (change_ends ..).mono fun _ tree' done => ?_
  obtain ⟨_, -, same⟩ | ⟨-, made⟩ := done
  · rw [same]
  · obtain ⟨-, absent, rfl⟩ := Disk.makeDirectory_eq_ok made
    exact Tree.held_insert_directory absent

variable (shows : scene.Shows id (some session))

include shows

theorem makeMissing_keeps_held (names : List String) (base : String) (tree : Tree) :
    Ends scene tree (id.makeMissing session base names) fun _ tree' => tree'.held = tree.held := by
  induction names generalizing base tree with
  | nil => exact .ok rfl
  | cons name rest ih =>
    refine (contains_ends shows tree _).andThen (fun found tree' ⟨same, _⟩ => ?_)
      fun error tree' ⟨same, _⟩ => congrArg Tree.held same
    subst same
    split
    · exact ih _ tree'
    · refine (makeDirectory_keeps_held tree' _).transported (fun _ later kept => ?_)
        fun error later kept => kept
      refine (ih _ later).andThen (fun _ _ kept' => ?_) fun _ _ kept' => kept'.trans kept
      exact .ok (kept'.trans kept)

theorem makeDirectories_keeps_held (path : String) (tree : Tree) :
    Ends scene tree (id.makeDirectories path) fun _ tree' => tree'.held = tree.held := by
  refine .live shows ((makeMissing_keeps_held shows _ _ tree).andThen (fun any tree' kept => ?_)
    fun _ _ kept => kept)
  cases any with
  | true => exact .ok kept
  | false => exact .throw kept

omit shows in
theorem openWrite_holds (tree : Tree) (path : String) :
    Ends scene tree (session.openWrite path) fun answer tree' =>
      (∃ error, answer = .error error ∧ tree'.held = tree.held) ∨
        ∃ writer : Session.Writer, answer = .ok writer ∧
          writer.location = Disk.locate (session.resolve path) ∧
          tree'.held = update tree.held writer.location (some []) := by
  refine (openWrite_ends ..).mono fun answer tree' done => ?_
  obtain ⟨error, failed, same⟩ | ⟨writer, eq, opened⟩ := done
  · exact .inl ⟨error, failed, congrArg Tree.held same⟩
  · refine .inr ⟨writer, eq, Disk.openWrite_location opened, ?_⟩
    obtain ⟨directory, name, -, -, at_name, -, rfl⟩ := Disk.openWrite_eq_ok opened
    exact Tree.held_insert_file (by simp [at_name]) []

theorem withDirectories_holds (name path : String) (tree : Tree) :
    Ends scene tree (Bucket.withDirectories ⟨id, name⟩ path (session.openWrite path))
      fun answer tree' => (∃ error, answer = .error error ∧ tree'.held = tree.held) ∨
        ∃ writer : Session.Writer, answer = .ok writer ∧
          writer.location = Disk.locate (session.resolve path) ∧
          tree'.held = update tree.held writer.location (some []) := by
  refine (openWrite_holds tree path).lifted fun answer tree' done => ?_
  obtain ⟨error, rfl, kept⟩ | ⟨writer, rfl, located, opened⟩ := done
  · dsimp only
    split
    · refine (makeDirectories_keeps_held shows _ tree').andThen (fun _ later made => ?_)
        fun error _ made => .inl ⟨error, rfl, made.trans kept⟩
      have kept := made.trans kept
      refine (openWrite_holds later path).lifted fun answer last done => ?_
      refine (transport_ends ..).mono fun _ _ ⟨same, eq⟩ => ?_
      subst same eq
      obtain ⟨error, rfl, kept'⟩ | ⟨writer, rfl, located, opened⟩ := done
      · exact .inl ⟨_, rfl, kept'.trans kept⟩
      · exact .inr ⟨writer, rfl, located, by rw [opened, kept]⟩
    · exact .throw (.inl ⟨_, rfl, kept⟩)
  · exact .ok (.inr ⟨writer, rfl, located, opened⟩)

end Opening

theorem Disk.Source.failure?_of_through {source : Source} {cut? : Option Cut}
    (h : (source.through cut?).2 = none) : source.failure? = none := by
  unfold Source.through at h
  split at h
  · exact h
  · split at h
    · cases h
    · exact h

/-- A file has been filled with a beginning of what a stream brings, and nothing else is changed; if
that went well, the stream came to its end and the file holds all of it. -/
def Filled (place : Location) (source : Source) (tree : Tree) (well : Prop) (tree' : Tree) : Prop :=
  ∃ front, front <+: source.bytes ∧ tree'.held = update tree.held place (some front) ∧
    (well → front = source.bytes ∧ source.failure? = none)

namespace Filled

variable {place : Location} {source : Source} {tree start tree' : Tree} {well : Prop}

theorem mono {well' : Prop} (filled : Filled place source tree well tree') (only : well' → well) :
    Filled place source tree well' tree' :=
  let ⟨front, beginning, held, whole⟩ := filled
  ⟨front, beginning, held, fun well' => whole (only well')⟩

theorem of_cut {whole : Source} {cut? : Option Cut}
    (filled : Filled place (whole.cut cut?) tree well tree') :
    Filled place whole tree well tree' := by
  obtain ⟨front, beginning, held, all⟩ := filled
  refine ⟨front, beginning.trans (Disk.Source.cut_bytes_prefix whole cut?), held, fun went => ?_⟩
  obtain ⟨rfl, uncut⟩ := all went
  have same := Disk.Source.eq_of_uncut uncut
  exact ⟨(congrArg (·.bytes) same).symm, congrArg (·.failure?) same⟩

theorem of_emptied (emptied : start.held = update tree.held place (some []))
    (filled : Filled place source start well tree') : Filled place source tree well tree' := by
  obtain ⟨front, beginning, held, whole⟩ := filled
  exact ⟨front, beginning, by rw [held, emptied, Function.update_idem], whole⟩

theorem elsewhere (filled : Filled place source tree well tree') {other : Location}
    (apart : other ≠ place) : tree'.held other = tree.held other := by
  obtain ⟨front, -, held, -⟩ := filled
  rw [held, Function.update_of_ne apart]

end Filled

section Filling

variable {scene : Scene} {tree : Tree} {writer : Session.Writer}
variable (empty : tree.held writer.location = some [])

include empty

theorem copy_fills (source : Source) :
    Ends scene tree (writer.copy source) fun answer tree' =>
      Filled writer.location source tree (∃ size, answer = .ok size) tree' := by
  refine ((copy_ends ..).and (copy_uncut ..)).mono fun answer tree' ⟨copied, uncut⟩ => ?_
  refine ⟨_, Disk.Source.through_prefix source writer.cut?, ?_, fun ⟨size, well⟩ => ?_⟩
  · rw [copied, Tree.held_append empty]
    rfl
  · have uncut := uncut size well
    exact ⟨Disk.Source.through_eq_of_none uncut, Disk.Source.failure?_of_through uncut⟩

theorem fill_ends (source : Source) (path : String) :
    Ends scene tree (do
        let size ← Operation.streamed path (← writer.copy source)
        Operation.streamed path (← writer.shutdown)
        pure size : Operation Nat)
      fun answer tree' => Filled writer.location source tree (∃ size, answer = .ok size) tree' := by
  refine (copy_fills empty source).streamed (fun size tree' filled => ?_) fun error _ filled => ?_
  · have filled : Filled writer.location source tree True tree' := filled.mono fun _ => ⟨size, rfl⟩
    refine (shutdown_ends ..).streamed (fun _ _ ⟨same, _⟩ => ?_) fun _ _ ⟨same, _⟩ => ?_
    all_goals subst same
    · exact .ok (filled.mono fun _ => trivial)
    · exact filled.mono fun _ => trivial
  · exact filled.mono fun ⟨_, failed⟩ => nomatch failed

end Filling

section Writing

variable {scene : Scene} {tree : Tree} {bucket : Bucket} {session : Session}
variable (shows : scene.Shows bucket.connection (some session)) (key : String)

include shows

theorem writePayload_fills (source : Source) :
    Ends scene tree (bucket.writePayload session key source) fun answer tree' =>
      (∃ error, answer = .error error) ∧ tree'.held = tree.held ∨
        Filled (bucket.spot session key .payload) source tree (∃ size, answer = .ok size) tree' := by
  refine (withDirectories_holds shows bucket.name (bucket.payloadPath key) tree).andThen
    (fun writer tree' done => ?_) fun error tree' done => ?_
  · obtain ⟨_, eq, -⟩ | ⟨_, eq, located, opened⟩ := done
    · cases eq
    cases eq
    have empty : tree'.held writer.location = some [] := by
      rw [opened, Function.update_self]
    refine (fill_ends empty source _).mono fun answer last filled => .inr ?_
    rw [show bucket.spot session key .payload = writer.location from located.symm]
    exact filled.of_emptied opened
  · obtain ⟨_, eq, kept⟩ | ⟨_, eq, -⟩ := done
    · exact .inl ⟨⟨_, rfl⟩, kept⟩
    · cases eq

omit shows in
theorem writeRecord_keeps (record : Record) :
    Ends scene tree (bucket.writeRecord session key record) fun _ tree' =>
      ∀ place, place ≠ bucket.spot session key .record → tree'.held place = tree.held place := by
  refine (format_ends ..).lifted fun format start ⟨same, _⟩ => ?_
  subst same
  refine (openWrite_holds start _).transported (fun writer tree' done => ?_) fun error tree' done => ?_
  · obtain ⟨_, eq, -⟩ | ⟨_, eq, located, opened⟩ := done
    · cases eq
    cases eq
    have empty : tree'.held writer.location = some [] := by
      rw [opened, Function.update_self]
    have elsewhere : ∀ {well : Prop} {last : Tree},
        Filled writer.location (.ofBytes (format.encode record)) tree' well last →
        ∀ place, place ≠ bucket.spot session key .record → last.held place = start.held place :=
      fun filled place other => (filled.of_emptied opened).elsewhere (located.symm ▸ other)
    refine (copy_fills empty _).streamed (fun _ last filled => ?_) fun _ _ filled => elsewhere filled
    refine (shutdown_ends ..).lifted fun _ _ ⟨same, _⟩ => (streamed_ends ..).mono ?_
    rintro _ _ ⟨rfl, -⟩
    exact same ▸ elsewhere filled
  · obtain ⟨_, eq, kept⟩ | ⟨_, eq, -⟩ := done
    · exact fun place _ => congrFun kept place
    · cases eq

end Writing

namespace Bucket

def storePayload (bucket : Bucket) (key : String) (payload : Payload) :
    Operation (Session × Nat) := do
  let session ← bucket.session
  let payload ← Operation.streamed (bucket.payloadPath key) payload.rewind
  let size ← bucket.writePayload session key payload.source
  pure (session, size)

theorem store_eq (bucket : Bucket) (key : String) (payload : Payload) (record : Record) :
    bucket.store key payload record = (do
      let (session, size) ← bucket.storePayload key payload
      bucket.writeRecord session key record
      pure size) := by
  simp only [store, storePayload, bind_assoc, pure_bind]

def copyPayload (bucket : Bucket) (source target : String) (record? : Option Record) :
    Operation (Session × Record) := do
  let session ← bucket.session
  let reader ← bucket.openPayload session source
  let record ← match record? with
    | some record => pure record
    | none => bucket.readRecord session source
  let _ ← bucket.writePayload session target reader
  pure (session, record)

theorem copy_eq (bucket : Bucket) {source target : String} (apart : source ≠ target)
    (record? : Option Record) :
    bucket.copy source target record? = (do
      let (session, record) ← bucket.copyPayload source target record?
      bucket.writeRecord session target record) := by
  unfold copy
  rw [if_neg apart]
  cases record? <;> simp only [copyPayload, bind_assoc, pure_bind]

end Bucket

/-- What a transfer to a key comes to: an error and no file changed, or its payload file filled. -/
def Bucket.Brings {α : Type} (bucket : Bucket) (session : Session) (key : String) (bytes : Bytes)
    (tree : Tree) (answer : Except StoreError (Session × α)) (tree' : Tree) : Prop :=
  ((∃ error, answer = .error error) ∧ tree'.held = tree.held ∨
    ∃ source : Source, source.bytes = bytes ∧
      Filled (bucket.spot session key .payload) source tree (∃ a, answer = .ok a) tree') ∧
    ∀ a, answer = .ok a → a.1 = session

theorem Bucket.Brings.failed {α : Type} {bucket : Bucket} {session : Session} {key : String}
    {bytes : Bytes} {tree tree' : Tree} {error : StoreError} (same : tree' = tree) :
    bucket.Brings session key bytes tree (.error error : Except StoreError (Session × α)) tree' :=
  ⟨.inl ⟨⟨error, rfl⟩, congrArg Tree.held same⟩, fun _ eq => nomatch eq⟩

section Bringing

variable {scene : Scene} {bucket : Bucket} {session : Session}
variable (shows : scene.Shows bucket.connection (some session))

include shows

theorem writePayload_brings {α : Type} (tree : Tree) (key : String) (whole : Source)
    (cut? : Option Cut) (answer : Nat → α) :
    Ends scene tree (do
        let size ← bucket.writePayload session key (whole.cut cut?)
        pure (session, answer size) : Operation (Session × α))
      (bucket.Brings session key whole.bytes tree) := by
  refine (writePayload_fills shows key _).andThen (fun size tree' done => ?_)
    fun error tree' done => ?_
  · obtain ⟨⟨_, eq⟩, -⟩ | filled := done
    · cases eq
    · refine .ok ⟨.inr ⟨whole, rfl, (filled.mono fun _ => ⟨size, rfl⟩).of_cut⟩, fun a eq => ?_⟩
      cases eq
      rfl
  · refine ⟨?_, fun _ eq => nomatch eq⟩
    obtain ⟨-, kept⟩ | filled := done
    · exact .inl ⟨⟨error, rfl⟩, kept⟩
    · exact .inr ⟨whole, rfl, (filled.mono fun ⟨_, eq⟩ => nomatch eq).of_cut⟩

theorem storePayload_brings (tree : Tree) (key : String) (payload : Payload) :
    Ends scene tree (bucket.storePayload key payload)
      (bucket.Brings session key payload.bytes tree) := by
  refine .live shows ((streamed_ends ..).andThen (fun rewound tree' ⟨same, eq⟩ => ?_)
    fun _ _ ⟨same, _⟩ => .failed same)
  subst same
  rw [Payload.source_of_rewind (mapError_eq_ok.1 eq.symm)]
  exact writePayload_brings shows tree' key (.ofBytes payload.bytes) payload.cut? id

theorem copyPayload_brings (tree : Tree) (source target : String) (record? : Option Record) :
    Ends scene tree (bucket.copyPayload source target record?)
      (bucket.Brings session target ((tree.held (bucket.spot session source .payload)).getD [])
        tree) := by
  have written : ∀ (reader : Source) (record : Record),
      (∃ whole cut?, Disk.openRead tree (session.resolve (bucket.payloadPath source)) = .ok whole ∧
        reader = whole.cut cut?) →
      Ends scene tree (do
          let _ ← bucket.writePayload session target reader
          pure (session, record) : Operation (Session × Record))
        (bucket.Brings session target ((tree.held (bucket.spot session source .payload)).getD [])
          tree) := by
    rintro _ record ⟨whole, cut?, opens, rfl⟩
    rw [← (Bucket.held_of_openRead opens).1]
    exact writePayload_brings shows tree target whole cut? fun _ => record
  refine .live shows ((openPayload_cuts tree source).andThen (fun reader start ⟨same, opens⟩ => ?_)
    fun _ _ ⟨same, _⟩ => .failed same)
  subst same
  cases record? with
  | some record => exact written reader record (opens reader rfl)
  | none =>
    refine (readRecord_ends start source).andThen (fun record later ⟨same, _⟩ => ?_)
      fun _ _ ⟨same, _⟩ => .failed same
    subst same
    exact written reader record (opens reader rfl)

end Bringing

/-- What a transfer to a key has left of its object: a payload that is as it was or a beginning of the
bytes, and a record that is as it was unless the payload had been written to its end by then. -/
structure Bucket.Transferred (bucket : Bucket) (session : Session) (key : String) (bytes : Bytes)
    (written : Prop) (before after : Tree) : Prop where
  payload : after.held (bucket.spot session key .payload) =
      before.held (bucket.spot session key .payload) ∨
    ∃ front, front <+: bytes ∧ after.held (bucket.spot session key .payload) = some front
  record : after.held (bucket.spot session key .record) =
      before.held (bucket.spot session key .record) ∨
    written ∧ after.held (bucket.spot session key .payload) = some bytes

/-- The part of a transfer that brings the payload settles what has become of it; what follows touches
the record alone. -/
theorem Bucket.transferred_of_brings {α β : Type} {scene : Scene} {bucket : Bucket}
    {session : Session} {key : String} {bytes : Bytes} {site : Site} {part : Operation (Session × α)}
    {next : Session × α → Operation β} (holds : scene.holds site)
    (brings : Ends scene site.disk part (bucket.Brings session key bytes site.disk))
    (keeps : ∀ a tree, a.1 = session → Ends scene tree (next a) fun _ tree' =>
      ∀ place, place ≠ bucket.spot session key .record → tree'.held place = tree.held place) :
    bucket.Transferred session key bytes (∃ a, (part site).1 = .ok a) site.disk
      ((part >>= next : Operation β) site).2.disk := by
  obtain ⟨held, brought, at_session⟩ := brings.run site holds rfl
  have apart := bucket.spot_payload_ne_record session key
  rw [Operation.bind_run]
  cases ended : (part site).1 with
  | error error =>
    dsimp only
    obtain ⟨-, kept⟩ | ⟨source, rfl, front, beginning, filled, -⟩ := brought
    · exact ⟨.inl (congrFun kept _), .inl (congrFun kept _)⟩
    · refine ⟨.inr ⟨front, beginning, ?_⟩, .inl ?_⟩
      · rw [filled, Function.update_self]
      · rw [filled, Function.update_of_ne apart.symm]
  | ok a =>
    dsimp only
    obtain ⟨⟨_, failed⟩, -⟩ | ⟨source, rfl, front, beginning, filled, whole⟩ := brought
    · cases ended.symm.trans failed
    · obtain ⟨rfl, -⟩ := whole ⟨a, ended⟩
      obtain ⟨-, kept⟩ := (keeps a _ (at_session a ended)).run (part site).2 held rfl
      have there : (next a (part site).2).2.disk.held (bucket.spot session key .payload) =
          some source.bytes := by
        rw [kept _ apart, filled, Function.update_self]
      exact ⟨.inr ⟨_, List.prefix_rfl, there⟩, .inr ⟨⟨a, rfl⟩, there⟩⟩

section Fetching

variable {scene : Scene} {bucket : Bucket} {session : Session}
variable (shows : scene.Shows bucket.connection (some session))

include shows

theorem fetch_adds (tree : Tree) (key : String) (sink : Sink) :
    Ends scene tree (bucket.fetch key sink) fun answer _ => ∃ added,
      answer.2 = sink.held ++ added ∧
      added <+: (tree.held (bucket.spot session key .payload)).getD [] ∧
      ∀ record, answer.1 = .ok record →
        tree.held (bucket.spot session key .payload) = some added := by
  -- With no session or no payload nothing is read, so both are taken as one failed opening.
  have opening : Ends scene tree (do
      let session ← bucket.session
      return (session, ← bucket.openPayload session key) : Operation (Session × Source))
      fun answer tree' => tree' = tree ∧ ∀ opened, answer = .ok opened →
        opened.1 = session ∧ ∃ whole cut?,
          Disk.openRead tree (session.resolve (bucket.payloadPath key)) = .ok whole ∧
            opened.2 = whole.cut cut? := by
    refine .live shows ((openPayload_cuts tree key).andThen (fun source _ ⟨same, opens⟩ => ?_)
      fun _ _ ⟨same, _⟩ => ⟨same, fun _ eq => nomatch eq⟩)
    refine .ok ⟨same, fun opened eq => ?_⟩
    cases eq
    exact ⟨rfl, opens source rfl⟩
  unfold Bucket.fetch
  dsimp only
  refine opening.bind fun answer _ ⟨same, opens⟩ => ?_
  subst same
  cases answer with
  | error error => exact .pure ⟨[], (List.append_nil _).symm, List.nil_prefix, fun _ eq => nomatch eq⟩
  | ok opened =>
    obtain ⟨session', source⟩ := opened
    obtain ⟨rfl, whole, cut?, opens, rfl⟩ := opens _ rfl
    have found := Bucket.held_of_openRead opens
    refine (pour_ends ..).bind fun poured later ⟨same, eq⟩ => ?_
    subst same eq
    have beginning := (Disk.Source.through_prefix (whole.cut cut?) sink.cut?).trans
      (Disk.Source.cut_bytes_prefix whole cut?)
    rw [found.1] at beginning
    cases broken : ((whole.cut cut?).through sink.cut?).2 with
    | some error => exact .pure ⟨_, rfl, beginning, fun _ eq => nomatch eq⟩
    | none =>
      refine (readRecord_ends later key).bind fun _ _ _ => .pure ⟨_, rfl, beginning, fun _ _ => ?_⟩
      have uncut := Disk.Source.eq_of_uncut (Disk.Source.failure?_of_through broken)
      rw [found.2 (congrArg (·.failure?) uncut), Disk.Source.through_eq_of_none broken]
      exact congrArg (some ·.bytes) uncut

end Fetching

section Running

variable {bucket : Bucket} {session : Session} {site : Site} {key : String}
variable (live : slotIn site.connections bucket.connection = some session)

include live

theorem fetch_of_refused {error : CallError} (sink : Sink)
    (refused : (session.openRead (bucket.payloadPath key) site).1 = .error error) :
    (bucket.fetch key sink site).1 = (.error (.ofPayload key error), sink.held) := by
  have opening : (do
      let session ← bucket.session
      return (session, ← bucket.openPayload session key) : Operation (Session × Source)) site =
      (.error (.ofPayload key error), (session.openRead (bucket.payloadPath key) site).2) := by
    have opens : bucket.openPayload session key site =
        (.error (.ofPayload key error), (session.openRead (bucket.payloadPath key) site).2) :=
      (lifted_of_run (Prod.ext refused rfl)).trans rfl
    refine (session_bind ..).trans ?_
    rw [live]
    dsimp only
    rw [Operation.bind_run, opens]
  exact congrArg Prod.fst (bind_of_run opening)

theorem store_of_fixed {payload : Payload} {error : IoError} (fixed : payload.fixed? = some error)
    (record : Record) :
    bucket.store key payload record site =
      (.error (.transport (.ofIo (bucket.payloadPath key) error)), site) := by
  unfold Bucket.store Bucket.session
  rw [session_bind, live]
  dsimp only
  rw [Payload.rewind, fixed]
  rfl

theorem fetch_appends (sink : Sink) :
    ∃ added, (bucket.fetch key sink site).1.2 = sink.held ++ added ∧
      added <+: (site.disk.held (bucket.spot session key .payload)).getD [] ∧
      ∀ record, (bucket.fetch key sink site).1.1 = .ok record →
        site.disk.held (bucket.spot session key .payload) = some added :=
  ((fetch_adds (Scene.shows_slot _ _) site.disk key sink).run site live rfl).2

theorem store_transfers (payload : Payload) (record : Record) :
    bucket.Transferred session key payload.bytes
      (∃ a, (bucket.storePayload key payload site).1 = .ok a) site.disk
      (bucket.store key payload record site).2.disk := by
  rw [Bucket.store_eq]
  refine Bucket.transferred_of_brings live
    (storePayload_brings (Scene.shows_slot _ _) site.disk key payload) ?_
  rintro ⟨_, size⟩ tree rfl
  exact (writeRecord_keeps key record).andThen (fun _ _ kept => .ok kept) fun _ _ kept => kept

theorem copy_transfers {source target : String} (apart : source ≠ target)
    (record? : Option Record) :
    bucket.Transferred session target
      ((site.disk.held (bucket.spot session source .payload)).getD [])
      (∃ a, (bucket.copyPayload source target record? site).1 = .ok a) site.disk
      (bucket.copy source target record? site).2.disk := by
  rw [Bucket.copy_eq bucket apart]
  refine Bucket.transferred_of_brings live
    (copyPayload_brings (Scene.shows_slot _ _) site.disk source target record?) ?_
  rintro ⟨_, record⟩ tree rfl
  exact writeRecord_keeps target record

end Running

/-- Transfers that break off leave beginnings, whatever the rules of the site are and wherever they
strike. A fetch appends to the sink a beginning of the payload: the whole of it if it answers a record,
and nothing if the payload could not be opened. A store, or a copy to another key, leaves the payload
of its key as it was or makes it a beginning of what it brings, and the record as it was unless the
payload had been written in full and its file shut down; and a payload that cannot be taken back to
its beginning leaves the whole site as it was. Without a session nothing is done at all. -/
theorem interrupted_transfers_leave_beginnings (bucket : Bucket) (site : Site) :
    (slotIn site.connections bucket.connection = none →
      (∀ key sink, bucket.fetch key sink site = ((.error .disconnected, sink.held), site)) ∧
      (∀ key payload record, bucket.store key payload record site = (.error .disconnected, site)) ∧
      ∀ source target record?,
        bucket.copy source target record? site = (.error .disconnected, site)) ∧
    ∀ session, slotIn site.connections bucket.connection = some session →
      (∀ key sink,
        (∃ added, (bucket.fetch key sink site).1.2 = sink.held ++ added ∧
          added <+: (site.disk.held (bucket.spot session key .payload)).getD [] ∧
          ∀ record, (bucket.fetch key sink site).1.1 = .ok record →
            site.disk.held (bucket.spot session key .payload) = some added) ∧
        ∀ error, (session.openRead (bucket.payloadPath key) site).1 = .error error →
          (bucket.fetch key sink site).1 = (.error (.ofPayload key error), sink.held)) ∧
      (∀ key payload record,
        bucket.Transferred session key payload.bytes
          (∃ a, (bucket.storePayload key payload site).1 = .ok a) site.disk
          (bucket.store key payload record site).2.disk ∧
        ∀ error, payload.fixed? = some error →
          bucket.store key payload record site =
            (.error (.transport (.ofIo (bucket.payloadPath key) error)), site)) ∧
      ∀ source target record?, source ≠ target →
        bucket.Transferred session target
          ((site.disk.held (bucket.spot session source .payload)).getD [])
          (∃ a, (bucket.copyPayload source target record? site).1 = .ok a) site.disk
          (bucket.copy source target record? site).2.disk := by
  refine ⟨fun empty => ⟨fun key sink => Shut.fetch key sink empty,
    fun key payload record => Shut.session_bind _ site empty,
    fun source target record? => Shut.copy source target record? site empty⟩, fun session live => ?_⟩
  refine ⟨fun key sink => ⟨fetch_appends live sink, fun error => fetch_of_refused live sink⟩,
    fun key payload record => ⟨store_transfers live payload record, fun error fixed => ?_⟩,
    fun source target record? apart => copy_transfers live apart record?⟩
  exact store_of_fixed live fixed record

/-- Writes to the payload of a key break off after two bytes, and so does the sink of a fetch after
one. -/
theorem cut_transfers_leave_two_bytes :
    let bucket : Bucket := ⟨⟨0⟩, "b"⟩
    let session : Session := ⟨0, "/"⟩
    let disk := (SortedMap.empty.insert ["b"] .directory).insert ["b", "k.dat"] (.file [1, 2, 3])
    let cut : Rule StreamKind Cut := ⟨.write, some "b/n.dat", 0, none, ⟨2, .nulInName⟩⟩
    let site := (Site.connected "/" disk).withRules [] [cut]
    let payload : Payload := { bytes := [4, 5, 6] }
    let stored := (bucket.store "n" payload SortedMap.empty site).2.disk
    let copied := (bucket.copy "k" "n" (some SortedMap.empty) site).2.disk
    let fetched := (bucket.fetch "k" { held := [9], cut? := some ⟨1, .nulInName⟩ } site).1.2
    slotIn site.connections bucket.connection = some session ∧
      (bucket.Transferred session "n" payload.bytes
        (∃ a, (bucket.storePayload "n" payload site).1 = .ok a) site.disk stored ∧
        stored.held ["b", "n.dat"] = some [4, 5]) ∧
      (bucket.Transferred session "n" [1, 2, 3]
        (∃ a, (bucket.copyPayload "k" "n" (some SortedMap.empty) site).1 = .ok a) site.disk copied ∧
        copied.held ["b", "n.dat"] = some [1, 2]) ∧
      (∃ added, fetched = [9] ++ added ∧ added <+: [1, 2, 3]) ∧ fetched = [9, 1] := by
  intro bucket session disk cut site payload stored copied fetched
  have live : slotIn site.connections bucket.connection = some session := by decide +kernel
  have held : site.disk.held (bucket.spot session "k" .payload) = some [1, 2, 3] := by
    decide +kernel
  have two_stored : stored.held ["b", "n.dat"] = some [4, 5] := by decide +kernel
  have two_copied : copied.held ["b", "n.dat"] = some [1, 2] := by decide +kernel
  have one_fetched : fetched = [9, 1] := by decide +kernel
  obtain ⟨fetches, stores, copies⟩ :=
    (interrupted_transfers_leave_beginnings bucket site).2 session live
  obtain ⟨⟨added, appended, beginning, -⟩, -⟩ :=
    fetches "k" { held := [9], cut? := some ⟨1, .nulInName⟩ }
  have copied_front := copies "k" "n" (some SortedMap.empty) (by decide)
  rw [held] at beginning copied_front
  exact ⟨live, ⟨(stores "n" payload SortedMap.empty).1, two_stored⟩, ⟨copied_front, two_copied⟩,
    ⟨added, appended, beginning⟩, one_fetched⟩

end TreeStore
