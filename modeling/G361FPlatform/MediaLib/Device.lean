import Mathlib.Data.List.Basic

namespace G361FPlatform.MediaLib

/-- Position of an entity in `media->entities`; it stands for the entity's address. -/
abbrev EntityId := Nat

/-- The entity types MediaLib tells apart; every other `info.type` is `other`. -/
inductive EntityType
  | devnodeV4l | subdevSensor | other
  deriving DecidableEq, Repr

/-- `MEDIA_PAD_FL_SINK` and `MEDIA_PAD_FL_SOURCE` of a pad. -/
structure PadFlags where
  sink : Bool
  source : Bool
  deriving DecidableEq, Repr

structure MediaEntity where
  id : Nat
  name : String
  type : EntityType
  pads : List PadFlags
  deriving DecidableEq, Repr

structure MediaPad where
  entity : EntityId
  index : Nat
  deriving DecidableEq, Repr

structure MediaLink where
  source : MediaPad
  sink : MediaPad
  deriving DecidableEq, Repr

/-- What `media_open` finds: the entities in enumeration order and the links in the order
`media_enum_links` adds them. -/
structure MediaDevice where
  entities : List MediaEntity
  links : List MediaLink
  deriving Repr

namespace MediaDevice

/-- `me->links` as `media_enum_links` fills it: every link is entered once at its source
and once, as the backlink, at its sink. -/
def linksOf (media : MediaDevice) (me : EntityId) : List MediaLink :=
  media.links.flatMap fun l =>
    (if l.source.entity = me then [l] else []) ++ (if l.sink.entity = me then [l] else [])

theorem mem_linksOf {media : MediaDevice} {me : EntityId} {l : MediaLink} :
    l ∈ media.linksOf me ↔
      l ∈ media.links ∧ (l.source.entity = me ∨ l.sink.entity = me) := by
  simp only [linksOf, List.mem_flatMap, List.mem_append]
  constructor
  · rintro ⟨l', hl', h | h⟩
    · split at h <;> simp_all
    · split at h <;> simp_all
  · rintro ⟨hl, h | h⟩
    · exact ⟨l, hl, .inl (by simp [h])⟩
    · exact ⟨l, hl, .inr (by simp [h])⟩

/-- `media_get_entity_by_name`. -/
def mediaGetEntityByName (media : MediaDevice) (name : String) : Option EntityId :=
  media.entities.findIdx? fun me => me.name = name

/-- `media_get_entity_by_id` with `MEDIA_ENT_ID_FLAG_NEXT` set. -/
def mediaGetEntityByIdNext (media : MediaDevice) (id : Nat) : Option EntityId :=
  media.entities.findIdx? fun me => id < me.id

def typeOf (media : MediaDevice) (me : EntityId) : EntityType :=
  (media.entities[me]?).elim .other (·.type)

def padsOf (media : MediaDevice) (me : EntityId) : List PadFlags :=
  (media.entities[me]?).elim [] (·.pads)

end MediaDevice

end G361FPlatform.MediaLib
