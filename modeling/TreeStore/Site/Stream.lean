import TreeStore.Disk.Operations
import TreeStore.Site.Fault
/-!
Streams of bytes, and what comes through when one is copied into another. Either side may break
off; what has been read before is written, and what has been written stays.
-/
namespace TreeStore

export Disk (Source)

namespace Disk.Source

def ofBytes (bytes : Bytes) : Source := ⟨bytes, none⟩

/-- A cut within the stream, or right behind its last byte, ends it with an error. -/
def cut (source : Source) : Option Cut → Source
  | none => source
  | some cut =>
    if cut.position ≤ source.bytes.length then
      ⟨source.bytes.take cut.position, some cut.error⟩
    else source

/-- The bytes that come through to a sink that may break off, and the error that ends the copy. A
sink breaks off only when a byte beyond its cut is written. -/
def through (source : Source) : Option Cut → Bytes × Option IoError
  | none => (source.bytes, source.failure?)
  | some cut =>
    if cut.position < source.bytes.length then
      (source.bytes.take cut.position, some cut.error)
    else (source.bytes, source.failure?)

theorem cut_bytes_prefix (source : Source) (cut : Option Cut) :
    (source.cut cut).bytes <+: source.bytes := by
  unfold Source.cut
  split
  · exact List.prefix_rfl
  · split
    · exact List.take_prefix _ _
    · exact List.prefix_rfl

theorem through_prefix (source : Source) (cut : Option Cut) :
    (source.through cut).1 <+: source.bytes := by
  unfold through
  split
  · exact List.prefix_rfl
  · split
    · exact List.take_prefix _ _
    · exact List.prefix_rfl

theorem through_eq_of_none {source : Source} {cut : Option Cut}
    (h : (source.through cut).2 = none) : (source.through cut).1 = source.bytes := by
  unfold through at h ⊢
  split
  · rfl
  · split <;> simp_all

end Disk.Source

structure Payload where
  bytes : Bytes
  /-- Where the payload stands. -/
  position : Nat := 0
  /-- After how many bytes reading it fails, if ever. -/
  cut? : Option Cut := none
  /-- Why it cannot be taken back to its beginning, if it cannot. -/
  fixed? : Option IoError := none

namespace Payload

def rewind (payload : Payload) : Except IoError Payload :=
  match payload.fixed? with
  | some error => .error error
  | none => .ok { payload with position := 0 }

def source (payload : Payload) : Source :=
  (Disk.Source.ofBytes (payload.bytes.drop payload.position)).cut payload.cut?

theorem source_of_rewind {payload rewound : Payload} (h : payload.rewind = .ok rewound) :
    rewound.source = (Disk.Source.ofBytes payload.bytes).cut payload.cut? := by
  unfold rewind at h
  split at h
  · cases h
  · cases h
    rfl

end Payload

structure Sink where
  held : Bytes := []
  cut? : Option Cut := none

end TreeStore
