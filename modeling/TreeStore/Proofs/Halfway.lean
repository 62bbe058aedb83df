import TreeStore.Proofs.Outcome
/-!
What an error can leave half done where no rule makes anything fail. A command that writes or moves
both files of an object begins with the payload, and nothing takes it back when the path of the
record turns out to be too long; that happens to keys on the edge and to no others.
-/
namespace TreeStore

open Layout (fileName)
open TreeStore.Path (Plain)

/-- The commands that write or move both files of an object, from a payload that does not break
off. -/
inductive Command.Transfers : Command → Prop
  | store {key : String} {payload : Payload} {record : Record} (whole : payload.cut? = none) :
      Transfers (.store key payload record)
  | copy {source target : String} {record? : Option Record} : Transfers (.copy source target record?)
  | rename {source target : String} : Transfers (.rename source target)

/-- The files at the point where the payload is done and the record is not. -/
inductive Command.Halfway (session : Session) (name : String) (files : Files) :
    Command → Files → Prop
  | store {key : String} {payload : Payload} {record : Record} (edge : OnEdge session name key) :
      Halfway session name files (.store key payload record)
        (files.set key .payload (some payload.bytes))
  | copy {source target : String} {record? : Option Record} {content : Bytes}
      (present : files source .payload = some content) (edge : OnEdge session name target) :
      Halfway session name files (.copy source target record?)
        (files.set target .payload (some content))
  | rename {source target : String} (present : files source .payload ≠ none)
      (edge : OnEdge session name source ∨ OnEdge session name target) :
      Halfway session name files (.rename source target) (files.move source target .payload)

theorem Command.Leaves.of_failed {session : Session} {name : String} {format : RecordFormat}
    {files files' : Files} {command : Command} {answer : Answer} (transfers : command.Transfers)
    (leaves : command.Leaves session name format files answer files')
    (failed : answer.error?.isSome) :
    files' = files ∨ command.Halfway session name files files' := by
  cases leaves with
  | refused => exact .inl rfl
  | looked => exact .inl rfl
  | spared => exact .inl rfl
  | kept => exact .inl rfl
  | stored => cases failed
  | storedHalfway why =>
    cases transfers with
    | store whole =>
      rw [Payload.stream_of_whole whole] at why ⊢
      exact .inr (.store (why.resolve_left fun broken => broken rfl))
  | deleted => cases transfers
  | renamed => cases failed
  | renamedHalfway present edge => exact .inr (.rename present (edge.imp_left And.left))
  | updated => cases failed
  | copied => cases failed
  | copiedHalfway present edge => exact .inr (.copy present edge)
  | cleared => cases failed

theorem store_on_edge {session : Session} {id : ConnectionId} {name key : String}
    {connection : Connection} {order : Disk.Order} {files : Files} {payload : Payload}
    (plain : Plain name) (live : connection.slot = some session) (free : payload.fixed? = none)
    (edge : OnEdge session name key) (record : Record) :
    Fails (Scene.calm id connection order) session name files
      (Bucket.store ⟨id, name⟩ key payload record)
      (files.set key .payload (some payload.stream.bytes)) :=
  store_halfway plain live edge.1 free (.inr ((onEdge_iff plain).1 edge).2)

theorem storeBytes_on_edge {bucket : Bucket} {session : Session} {connection : Connection}
    {site : Site} {files : Files} {key : String} (plain : Plain bucket.name)
    (known : site.connections[bucket.connection.index]? = some connection)
    (live : connection.slot = some session)
    (stores : Stores session bucket.name site.disk files)
    (edge : OnEdge session bucket.name key) (bytes : Bytes) (record : Record) :
    (∃ error, (bucket.storeBytes key bytes record (site.withRules [] [])).1 = .error error) ∧
      Files.inTree session bucket.name
          (bucket.storeBytes key bytes record (site.withRules [] [])).2.disk =
        files.set key .payload (some bytes) := by
  have calm : (Scene.calm bucket.connection connection site.order).holds (site.withRules [] []) :=
    ⟨rfl, rfl, known, rfl⟩
  have halfway : Fails (Scene.calm bucket.connection connection site.order) session bucket.name
      files (bucket.storeBytes key bytes record) (files.set key .payload (some bytes)) :=
    store_on_edge plain live rfl edge record
  exact (halfway.run calm stores).2.2

/-- Without a fault a store, a copy or a rename that ends with an error has changed no file, unless
one of its keys is on the edge: then the payload may be done without the record. A store under such a
key always ends so. -/
theorem failed_transfer_is_whole_off_edge (bucket : Bucket) (session : Session) (site : Site)
    (since : bucket.Since site)
    (live : (site.connections[bucket.connection.index]?).bind Connection.slot = some session)
    {command : Command} (transfers : command.Transfers) :
    let before := Files.inTree session bucket.name site.disk
    let ended := command.run bucket (site.withRules [] [])
    let after := Files.inTree session bucket.name ended.2.disk
    (ended.1.error?.isSome →
      after = before ∨ command.Halfway session bucket.name before after) ∧
    ∀ key payload record, command = .store key payload record → payload.fixed? = none →
      OnEdge session bucket.name key →
        ended.1.error?.isSome ∧ command.Halfway session bucket.name before after := by
  intro before ended after
  obtain ⟨stores, connection, slot, calm⟩ := since.calm live
  have plain := since.plain
  refine ⟨fun failed => ?_, fun key payload record eq free edge => ?_⟩
  · exact ((command.leaves slot plain).run calm stores).2.2.of_failed transfers failed
  · subst eq
    have ends : Yields (Scene.calm bucket.connection connection site.order) session bucket.name
        before ((Command.store key payload record).run bucket) fun answer later =>
          answer.error?.isSome ∧
            later = before.set key .payload (some payload.stream.bytes) := by
      refine Yields.map ((store_on_edge plain slot free edge record).mono
        fun result later ⟨⟨error, eq⟩, same⟩ => ?_)
      rw [eq]
      exact ⟨rfl, same⟩
    obtain ⟨failed, same⟩ : ended.1.error?.isSome ∧
        after = before.set key .payload (some payload.stream.bytes) := (ends.run calm stores).2.2
    refine ⟨failed, ?_⟩
    cases transfers with
    | store whole =>
      rw [same, Payload.stream_of_whole whole]
      exact .store edge

/-- A key without folders is on the edge as soon as the name of its payload is as long as it may be,
where the names above it leave room. -/
theorem onEdge_of_flat {session : Session} {name key : String} (plain : Plain name)
    (flat : Layout.folders key = [])
    (size : (fileName key .payload).utf8ByteSize = Disk.nameLimit)
    (short : name.utf8ByteSize ≤ Disk.nameLimit)
    (room : session.stem.utf8ByteSize + name.utf8ByteSize + 1 + Disk.nameLimit < Disk.pathLimit) :
    OnEdge session name key := by
  have slash : Path.trimEnd name = name := Path.trimEnd_of_getLast? (Path.getLast?_ne_slash plain)
  have place : Layout.place name key = name ++ ("/" ++ Key.token key) := by
    rw [Layout.place_eq, flat, Path.ofNames_concat, Path.ofNames_singleton, Path.child,
      if_neg (by simpa using plain.some_char), slash, String.append_assoc]
  have one : "/".utf8ByteSize = 1 := rfl
  refine ⟨(fits_fileNames_iff plain .payload).2 ⟨?_, ?_, ?_⟩, .inl size⟩
  · rw [flat]
    simpa using short
  · rw [← size_fileName]
    exact size.le
  · rw [size_fileName] at size
    rw [place, String.utf8ByteSize_append, String.utf8ByteSize_append]
    omega

def letters (n : Nat) : String := String.ofList (List.replicate n 'a')

theorem token_letters (n : Nat) : Key.token (letters n) = letters n := by
  unfold letters
  rw [Key.token, String.toList_ofList]
  congr 1
  induction n with
  | zero => rfl
  | succ n ih => rw [List.replicate_succ, Key.escapeChars, ih]; rfl

theorem size_letters (n : Nat) : (letters n).utf8ByteSize = n := by
  rw [letters, Path.utf8ByteSize_replicate]
  exact Nat.mul_one n

theorem folders_letters (n : Nat) : Layout.folders (letters n) = [] := by
  refine Layout.folders_of_flat fun front => ?_
  rw [token_letters, letters, String.toList_ofList] at front
  have mark : '3' ∈ Layout.bulkMark.toList := by decide
  cases List.eq_of_mem_replicate (front.subset mark)

theorem onEdge_letters : OnEdge ⟨0, "/"⟩ "b" (letters 251) := by
  refine onEdge_of_flat (by decide) (folders_letters 251) ?_ (by decide) (by decide)
  rw [size_fileName, token_letters, size_letters]
  rfl

theorem store_on_edge_stops_halfway :
    let bucket : Bucket := ⟨⟨0⟩, "b"⟩
    let site := (ConnectionId.createBucket ⟨0⟩ "b" (Site.connected "/" SortedMap.empty)).2
    let command := Command.store (letters 251) { bytes := [7] } SortedMap.empty
    let ended := command.run bucket (site.withRules [] [])
    bucket.Since site ∧ command.Transfers ∧ OnEdge ⟨0, "/"⟩ bucket.name (letters 251) ∧
      ended.1.error?.isSome ∧ command.Halfway ⟨0, "/"⟩ bucket.name
        (Files.inTree ⟨0, "/"⟩ bucket.name site.disk)
        (Files.inTree ⟨0, "/"⟩ bucket.name ended.2.disk) := by
  intro bucket site command ended
  have since : bucket.Since site := .of_empty_disk
  have live : (site.connections[bucket.connection.index]?).bind Connection.slot =
      some ⟨0, "/"⟩ := by decide +kernel
  have transfers : command.Transfers := .store rfl
  have edge : OnEdge ⟨0, "/"⟩ bucket.name (letters 251) := onEdge_letters
  clear_value site
  exact ⟨since, transfers, edge, (failed_transfer_is_whole_off_edge bucket ⟨0, "/"⟩ site since live
    transfers).2 (letters 251) _ _ rfl rfl edge⟩

/-- The payload is left of an object whose record could not be written. -/
theorem store_on_edge_leaves_payload :
    let bucket : Bucket := ⟨⟨0⟩, "b"⟩
    let site := (ConnectionId.createBucket ⟨0⟩ "b" (Site.connected "/" SortedMap.empty)).2
    bucket.Since site ∧ Files.inTree ⟨0, "/"⟩ bucket.name site.disk = Files.none ∧
      let ended := bucket.storeBytes (letters 251) [7] SortedMap.empty (site.withRules [] [])
      (∃ error, ended.1 = .error error) ∧
        Files.inTree ⟨0, "/"⟩ bucket.name ended.2.disk =
          Files.none.set (letters 251) .payload (some [7]) := by
  intro bucket site
  have plain : Plain bucket.name := by decide
  have made : (ConnectionId.createBucket ⟨0⟩ "b" (Site.connected "/" SortedMap.empty)).1 =
      .ok bucket := by decide +kernel
  have known : site.connections[0]? = some ⟨{}, some ⟨0, "/"⟩⟩ := (directory_of_made made rfl rfl).1
  have stores : Stores ⟨0, "/"⟩ bucket.name site.disk Files.none :=
    @stores_of_made ⟨0, "/"⟩ ⟨0⟩ "b" _ _ made rfl rfl Tree.wellFormed_empty plain
  exact ⟨.of_empty_disk, stores.inTree_eq, storeBytes_on_edge plain known rfl stores onEdge_letters
    [7] SortedMap.empty⟩

end TreeStore
