import GeoMaster.Proofs.ProjectedSource

/-!
# A projection is an exact edit

The declared paths of a projection and its messages describe the same edit of the captured messages: the
members at the paths are deleted, and nothing else changes but the order of members.
-/

namespace GeoMaster

open Except List Option Pointer Json

namespace SourceProjection

open Op

/-! ### Event names -/

theorem get_replaceMember_of_ne {fields : List (String × Json)} {key other : String}
    {value : Option Json} (hne : other ≠ key) :
    (Json.object (replaceMember fields key value)).get other = (Json.object fields).get other := by
  induction fields with
  | nil => rfl
  | cons field _ ih =>
    rw [replaceMember, flatMap_cons, ← replaceMember, get_append, ih, get_cons]
    by_cases heq : field.1 = key
    · have hskip : field.1 ≠ other := fun h => hne (h.symm.trans heq)
      rw [if_pos heq, if_neg hskip]
      cases value <;> simp [get_cons, Ne.symm hne]
    · rw [if_neg heq, get_cons, get_nil]
      by_cases hother : field.1 = other <;> simp [hother]

variable {s s' : ProjectionState} {messages kept : List Json} {places : Places}

theorem projectMessage_event {message : Json} {scope : Scope} {place : String}
    {result : Json × Scope} (h : Returns (projectMessage message scope place) s result s') :
    result.1.get "event" = message.get "event" := by
  have hid : ∀ {fields kept : List (String × Json)} {s s' : ProjectionState}, Returns (dropId fields place) s kept s' →
      (Json.object kept).get "event" = (Json.object fields).get "event" := by
    intro fields kept s s' hrun
    rw [dropId] at hrun
    split at hrun
    · obtain ⟨rfl, -⟩ := returns_pure.mp hrun
      rfl
    · simp only [returns_iff] at hrun
      obtain ⟨_, _, -, _, _, -, rfl, -⟩ := hrun
      exact get_replaceMember_of_ne (by decide)
  rw [projectMessage] at h
  simp only [returns_iff] at h
  obtain ⟨_, _, ⟨hfields, rfl⟩, event, _, ⟨-, rfl⟩, kept, _, hdropped, h⟩ := h
  obtain rfl := members_eq_some (filter_eq_some_iff.mp hfields).1
  rw [← hid hdropped]
  split at h
  · simp only [returns_iff, auxiliaryMessage] at h
    obtain ⟨_, _, ⟨_, _, -, _, _, -, rfl, -⟩, rfl, -⟩ := h
    exact get_replaceMember_of_ne (by decide)
  · split at h
    · simp only [returns_iff, deltaMessage] at h
      obtain ⟨_, _, ⟨_, _, -, _, _, -, rfl, -⟩, rfl, -⟩ := h
      exact get_replaceMember_of_ne (by decide)
    · rw [namedMessage] at h
      simp only [returns_iff] at h
      obtain ⟨_, _, ⟨_, _, -, members, _, hraw, h⟩, rfl, -⟩ := h
      have hmembers : (Json.object members).get "event" = (Json.object kept).get "event" := by
        rw [dropRawData] at hraw
        split at hraw
        · obtain ⟨rfl, -⟩ := returns_pure.mp hraw
          rfl
        · simp only [returns_iff] at hraw
          obtain ⟨_, _, -, _, _, -, rfl, -⟩ := hraw
          exact get_replaceMember_of_ne (by decide)
      rw [← hmembers]
      split at h
      · simp only [returns_iff] at h
        obtain ⟨_, _, -, rfl, -⟩ := h
        rfl
      · simp only [returns_iff] at h
        obtain ⟨_, _, -, _, _, -, _, _, -, rfl, -⟩ := h
        exact get_replaceMember_of_ne (by decide)

theorem projectMessages_events {index : Nat} {scope : Scope} (h : Returns (projectMessages messages index scope) s kept s') :
    kept.map (fun message => message.get "event") = messages.map fun message => message.get "event" := by
  induction messages generalizing index scope s s' kept with
  | nil =>
    obtain ⟨rfl, -⟩ := returns_pure.mp h
    rfl
  | cons _ _ ih =>
    rw [projectMessages] at h
    simp only [returns_iff] at h
    obtain ⟨_, _, hfirst, _, _, hothers, rfl, -⟩ := h
    rw [map_cons, map_cons, projectMessage_event hfirst, ih hothers]

theorem projectDeepseekSource_events [JsonSize] {exchange : Json} {p : Projection}
    (h : projectDeepseekSource exchange = .ok p) (hmessages : exchange.get "messages" = some (.array messages))
    (hkept : p.exchange.get "messages" = some (.array kept)) :
    kept.map (fun message => message.get "event") = messages.map fun message => message.get "event" := by
  simp only [projectDeepseekSource, eq_ok_iff] at h
  obtain ⟨_, hitems, result, hresult, rfl⟩ := h
  simp only [admittedMessages, hmessages, Json.asArray, bind_eq_bind, bind_some, ite_none_right_eq_some] at hitems
  obtain ⟨-, heq⟩ := hitems
  obtain rfl := some.inj heq
  obtain rfl : result = kept := array.inj (some.inj hkept)
  exact projectMessages_events (Prod.ext hresult rfl)

/-! ### The edit -/

/-- The messages of an exchange as a document of their own. -/
def messagesDocument (messages : List Json) : Json :=
  .object [("messages", .array messages)]

theorem messages_fields (h : MessagesSound 0 messages kept places) :
    FieldsSound [("messages", .array messages)] [("messages", .array kept)] (places.map ("messages" :: ·)) :=
  FieldsSound.keep (by decide) h.items.array

theorem parse_places :
    (places.map fun keys => render ("messages" :: keys)).map parse = places.map ("messages" :: ·) := by
  rw [List.map_map]
  exact map_congr_left fun keys _ => parse_render (by simp)

/-- The projection of an exchange declares distinct paths of members that are there, and its messages are
the captured ones without exactly these members: as many, with the same event names, all arrays as long as
before, without private members, and of reasoning objects only with the type. -/
theorem projectDeepseekSource_exact [JsonSize] {exchange : Json} {p : Projection}
    (h : projectDeepseekSource exchange = .ok p) (hproper : exchange.Proper) :
    ∃ messages kept, exchange.get "messages" = some (.array messages) ∧ p.exchange.get "messages" = some (.array kept)
      ∧ p.omittedPaths.Nodup
      ∧ (∀ path ∈ p.omittedPaths, (exchange.pointer (Pointer.parse path)).isSome = true)
      ∧ ((messagesDocument messages).without (p.omittedPaths.map Pointer.parse)).SameAs (messagesDocument kept)
      ∧ kept.map (fun message => message.get "event") = messages.map (fun message => message.get "event")
      ∧ (∀ keys others, (messagesDocument kept).pointer keys = some (.array others) →
          ∃ items, exchange.pointer keys = some (.array items) ∧ items.length = others.length)
      ∧ ∀ fields ∈ (messagesDocument kept).objects,
          (∀ field ∈ fields, SourceNames.isPrivate field.1 = false)
            ∧ (isThink (.object fields) = true → ∀ field ∈ fields, field.1 = "type") := by
  obtain ⟨messages, kept, places, hmessages, -, hkept, hsound, hpaths⟩ := projectDeepseekSource_sound h hproper
  have hfields := messages_fields hsound
  have hdocument := hfields.object (hfields.public (by simp))
  have hexchange : ∀ keys, (messagesDocument messages).pointer ("messages" :: keys)
      = exchange.pointer ("messages" :: keys) := by
    intro keys
    cases exchange with
    | object members =>
      rw [messagesDocument, pointer_object, pointer_object, hmessages]
      rfl
    | _ => simp [Json.get] at hmessages
  refine ⟨messages, kept, hmessages, hkept, ?_, ?_, ?_, projectDeepseekSource_events h hmessages hkept, ?_,
    hdocument.shown⟩
  · rw [hpaths]
    refine hsound.items.distinct.map fun keys others heq => ?_
    exact (List.cons.inj (render_injective (by simp) (by simp) heq)).2
  · intro path hpath
    rw [hpaths] at hpath
    obtain ⟨keys, hkeys, rfl⟩ := mem_map.mp hpath
    rw [parse_render (by simp), ← hexchange]
    exact hdocument.somewhere _ (mem_map.mpr ⟨keys, hkeys, rfl⟩)
  · rw [hpaths, parse_places]
    exact hdocument.rest
  · intro keys others hpointer
    have hown : (messagesDocument messages).Proper := by
      refine Json.proper_object.mpr ⟨by simp, fun field hfield => ?_⟩
      obtain rfl := mem_singleton.mp hfield
      exact hproper.get hmessages
    have hrest : ((messagesDocument messages).without (places.map ("messages" :: ·))).SameAs
        (messagesDocument kept) := hdocument.rest
    obtain ⟨items, hitems, hlength⟩ := Json.array_length hrest hown hpointer
    cases keys with
    | nil => simp [messagesDocument] at hpointer
    | cons key rest =>
      have hkey : key = "messages" := by
        by_contra hne
        simp [messagesDocument, pointer_object, get_cons, Ne.symm hne] at hpointer
      subst hkey
      exact ⟨items, by rw [← hexchange, hitems], hlength⟩

namespace Sample

/-- The size of the compact text. -/
@[reducible]
def compactSize : JsonSize where
  byteLength := Json.toVecLen

attribute [local instance] compactSize

/-- A ready event, a snapshot with reasoning, more of the reasoning, and the end of the stream. -/
def exchange : Json :=
  .object [("messages", .array
    [.object [("event", .string "ready"), ("data", .object
        [("request_message_id", .ofNat 1), ("response_message_id", .ofNat 2), ("email", .string "a@b.c")])],
      .object [("event", .string "message"), ("data", .object
        [("p", .string "response/fragments"), ("v", .array
          [.object [("type", .string "THINK"), ("content", .string "hidden")],
            .object [("type", .string "RESPONSE"), ("content", .string "shown")]])])],
      .object [("event", .string "message"), ("data", .object
        [("p", .string "response/fragments/-2/content"), ("o", .string "APPEND"), ("v", .string " reasoning")])],
      .object [("event", .string "finish"), ("raw_data", .string "")]])]

def projection : Projection where
  exchange := .object [("messages", .array
    [.object [("event", .string "ready"), ("data", .object
        [("request_message_id", .ofNat 1), ("response_message_id", .ofNat 2)])],
      .object [("event", .string "message"), ("data", .object
        [("p", .string "response/fragments"), ("v", .array
          [.object [("type", .string "THINK")],
            .object [("type", .string "RESPONSE"), ("content", .string "shown")]])])],
      .object [("event", .string "message"), ("data", .object
        [("p", .string "response/fragments/-2/content"), ("o", .string "APPEND")])],
      .object [("event", .string "finish")]])]
  omittedPaths := ["/messages/0/data/email", "/messages/1/data/v/0/content", "/messages/2/data/v",
    "/messages/3/raw_data"]

theorem projected : projectDeepseekSource exchange = .ok projection := by
  decide +kernel

theorem exchange_proper : exchange.Proper := by
  simp [exchange, Json.Proper, Json.ProperItems, Json.ProperFields, Json.ProperField, Json.ofNat]

theorem projectDeepseekSource_exact_sample :
    projectDeepseekSource exchange = .ok projection ∧ projection.omittedPaths.Nodup
      ∧ ∀ path ∈ projection.omittedPaths, (exchange.pointer (Pointer.parse path)).isSome = true := by
  obtain ⟨_, _, -, -, hdistinct, hthere, -⟩ := projectDeepseekSource_exact projected exchange_proper
  exact ⟨projected, hdistinct, hthere⟩

end Sample

end SourceProjection

end GeoMaster
