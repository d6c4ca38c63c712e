import Mathlib.Data.Set.Insert
import Mathlib.Logic.Function.Basic

/-!
# Matching replies to requests in an event stream

A stream is matched when every reply in it is assigned an earlier request that it answers, and no
request is assigned twice. Streams that a system appends to are matched step by step: the tokens
of the requests still open are kept beside the stream, a request opens its token, and a reply
closes the token of the request that it answers.
-/

namespace KongFuChess.Matching

variable {Event Token : Type*}

/-- Replies and requests of one kind of stream, and the tokens that requests open. -/
structure Protocol (Event Token : Type*) where
  Reply : Event → Prop
  Answers : Event → Event → Prop
  Opens : Event → Token → Prop

variable (protocol : Protocol Event Token)

/-- An assignment of the position of a request to the position of each reply. -/
structure Assignment (events : List Event) (start : ℕ → ℕ) : Prop where
  answered : ∀ {index reply}, events[index]? = some reply → protocol.Reply reply →
    start index < index ∧
      ∃ request, events[start index]? = some request ∧ protocol.Answers request reply
  injective : ∀ {left right reply reply'}, events[left]? = some reply → protocol.Reply reply →
    events[right]? = some reply' → protocol.Reply reply' → start left = start right → left = right

/-- Every reply has its own earlier request. -/
def WellPaired (events : List Event) : Prop := ∃ start, Assignment protocol events start

/-- An assignment together with the positions at which the open tokens were opened. -/
structure OpenAssignment (events : List Event) (tokens : Set Token) (start : ℕ → ℕ)
    (opened : Token → ℕ) : Prop extends Assignment protocol events start where
  opens : ∀ {token}, token ∈ tokens →
    ∃ request, events[opened token]? = some request ∧ protocol.Opens request token
  distinct : ∀ {left right}, left ∈ tokens → right ∈ tokens → opened left = opened right →
    left = right
  unused : ∀ {token index reply}, token ∈ tokens → events[index]? = some reply →
    protocol.Reply reply → start index ≠ opened token

/-- A matched stream with its open tokens. -/
def Matched (events : List Event) (tokens : Set Token) : Prop :=
  ∃ start opened, OpenAssignment protocol events tokens start opened

theorem getElem?_append_of_some {events : List Event} {index : ℕ} {event : Event}
    (h : events[index]? = some event) (last : Event) : (events ++ [last])[index]? = some event := by
  rw [List.getElem?_append_left (List.getElem?_eq_some_iff.1 h).1, h]

/-- An event of an extended stream is an old one or the last one. -/
theorem getElem?_append_cases {events : List Event} {index : ℕ} {event last : Event}
    (h : (events ++ [last])[index]? = some event) :
    events[index]? = some event ∧ index < events.length ∨ index = events.length ∧ event = last := by
  by_cases hindex : index < events.length
  · rw [List.getElem?_append_left hindex] at h
    exact .inl ⟨h, hindex⟩
  · rw [List.getElem?_append_right (by omega), List.getElem?_singleton] at h
    split at h
    · exact .inr ⟨by omega, (Option.some.inj h).symm⟩
    · exact absurd h (Option.some_ne_none event).symm

namespace OpenAssignment

variable {protocol}
variable {events : List Event} {tokens : Set Token} {start : ℕ → ℕ} {opened : Token → ℕ}

theorem opened_lt (h : OpenAssignment protocol events tokens start opened) {token : Token}
    (hmem : token ∈ tokens) : opened token < events.length := by
  obtain ⟨_, hrequest, -⟩ := h.opens hmem
  exact (List.getElem?_eq_some_iff.1 hrequest).1

/-- Appending an event that is not a reply changes nothing. -/
theorem append_other (h : OpenAssignment protocol events tokens start opened) {event : Event}
    (hevent : ¬ protocol.Reply event) :
    OpenAssignment protocol (events ++ [event]) tokens start opened := by
  have hold : ∀ {index : ℕ} {reply : Event}, (events ++ [event])[index]? = some reply →
      protocol.Reply reply → events[index]? = some reply := by
    intro index reply hindex hreply
    rcases getElem?_append_cases hindex with ⟨hindex, -⟩ | ⟨-, rfl⟩
    · exact hindex
    · exact absurd hreply hevent
  refine ⟨⟨?_, ?_⟩, ?_, h.distinct, ?_⟩
  · intro index reply hindex hreply
    obtain ⟨hlt, request, hrequest, hanswers⟩ := h.answered (hold hindex hreply) hreply
    exact ⟨hlt, request, getElem?_append_of_some hrequest event, hanswers⟩
  · exact fun hleft hreply hright hreply' ↦
      h.injective (hold hleft hreply) hreply (hold hright hreply') hreply'
  · intro token hmem
    obtain ⟨request, hrequest, hopens⟩ := h.opens hmem
    exact ⟨request, getElem?_append_of_some hrequest event, hopens⟩
  · exact fun hmem hindex hreply ↦ h.unused hmem (hold hindex hreply) hreply

/-- A request opens its token at the end of the stream. -/
theorem append_request [DecidableEq Token]
    (h : OpenAssignment protocol events tokens start opened) {event : Event} {token : Token}
    (hevent : ¬ protocol.Reply event) (hopens : protocol.Opens event token) :
    OpenAssignment protocol (events ++ [event]) (insert token tokens) start
      (Function.update opened token events.length) := by
  have hlater := h.append_other hevent
  refine ⟨hlater.toAssignment, ?_, ?_, ?_⟩
  · intro other hmem
    by_cases hother : other = token
    · subst hother
      exact ⟨event, by simp, hopens⟩
    · rw [Function.update_of_ne hother]
      exact hlater.opens (hmem.resolve_left hother)
  · intro left right hleft hright heq
    by_cases hl : left = token <;> by_cases hr : right = token
    · rw [hl, hr]
    · have hlt := h.opened_lt (hright.resolve_left hr)
      rw [hl, Function.update_self, Function.update_of_ne hr] at heq
      omega
    · have hlt := h.opened_lt (hleft.resolve_left hl)
      rw [hr, Function.update_self, Function.update_of_ne hl] at heq
      omega
    · rw [Function.update_of_ne hl, Function.update_of_ne hr] at heq
      exact h.distinct (hleft.resolve_left hl) (hright.resolve_left hr) heq
  · intro other index reply hmem hindex hreply
    by_cases hother : other = token
    · have hstart := (hlater.answered hindex hreply).1
      have hlt := (List.getElem?_eq_some_iff.1 hindex).1
      rw [List.length_append, List.length_singleton] at hlt
      rw [hother, Function.update_self]
      omega
    · rw [Function.update_of_ne hother]
      exact hlater.unused (hmem.resolve_left hother) hindex hreply

/-- A reply closes the token of the request that it answers. -/
theorem append_reply (h : OpenAssignment protocol events tokens start opened) {event : Event}
    {token : Token} (hmem : token ∈ tokens)
    (hanswers : ∀ request, protocol.Opens request token → protocol.Answers request event) :
    OpenAssignment protocol (events ++ [event]) (tokens \ {token})
      (Function.update start events.length (opened token)) opened := by
  have hold : ∀ {index : ℕ}, index < events.length →
      Function.update start events.length (opened token) index = start index :=
    fun hlt ↦ Function.update_of_ne (by omega) _ _
  have hopened := h.opened_lt hmem
  refine ⟨⟨?_, ?_⟩, ?_, ?_, ?_⟩
  · intro index reply hindex hreply
    rcases getElem?_append_cases hindex with ⟨hindex, hlt⟩ | ⟨rfl, rfl⟩
    · obtain ⟨hstart, request, hrequest, hans⟩ := h.answered hindex hreply
      rw [hold hlt]
      exact ⟨hstart, request, getElem?_append_of_some hrequest event, hans⟩
    · obtain ⟨request, hrequest, hopens⟩ := h.opens hmem
      rw [Function.update_self]
      exact ⟨hopened, request, getElem?_append_of_some hrequest _, hanswers request hopens⟩
  · intro left right reply reply' hleft hreply hright hreply' heq
    rcases getElem?_append_cases hleft with ⟨holdLeft, hltLeft⟩ | ⟨hlastLeft, -⟩ <;>
      rcases getElem?_append_cases hright with ⟨holdRight, hltRight⟩ | ⟨hlastRight, -⟩
    · rw [hold hltLeft, hold hltRight] at heq
      exact h.injective holdLeft hreply holdRight hreply' heq
    · rw [hold hltLeft, hlastRight, Function.update_self] at heq
      exact absurd heq (h.unused hmem holdLeft hreply)
    · rw [hold hltRight, hlastLeft, Function.update_self] at heq
      exact absurd heq.symm (h.unused hmem holdRight hreply')
    · rw [hlastLeft, hlastRight]
  · intro other hother
    obtain ⟨request, hrequest, hopens⟩ := h.opens hother.1
    exact ⟨request, getElem?_append_of_some hrequest event, hopens⟩
  · exact fun hleft hright ↦ h.distinct hleft.1 hright.1
  · intro other index reply hother hindex hreply
    rcases getElem?_append_cases hindex with ⟨hindex, hlt⟩ | ⟨rfl, rfl⟩
    · rw [hold hlt]
      exact h.unused hother.1 hindex hreply
    · rw [Function.update_self]
      exact fun heq ↦ hother.2 (h.distinct hmem hother.1 heq).symm

end OpenAssignment

namespace Matched

variable {protocol}
variable {events : List Event} {tokens : Set Token}

theorem wellPaired (h : Matched protocol events tokens) : WellPaired protocol events := by
  obtain ⟨start, _, h⟩ := h
  exact ⟨start, h.toAssignment⟩

theorem nil : Matched protocol [] (∅ : Set Token) := by
  refine ⟨fun _ ↦ 0, fun _ ↦ 0, ⟨?_, ?_⟩, ?_, ?_, ?_⟩ <;> simp

/-- Tokens may be given up. -/
theorem mono {tokens' : Set Token} (h : Matched protocol events tokens) (hsub : tokens' ⊆ tokens) :
    Matched protocol events tokens' := by
  obtain ⟨start, opened, h⟩ := h
  exact ⟨start, opened, h.toAssignment, fun hmem ↦ h.opens (hsub hmem),
    fun hleft hright ↦ h.distinct (hsub hleft) (hsub hright), fun hmem ↦ h.unused (hsub hmem)⟩

theorem append_other (h : Matched protocol events tokens) (event : Event)
    (hevent : ¬ protocol.Reply event) : Matched protocol (events ++ [event]) tokens := by
  obtain ⟨start, opened, h⟩ := h
  exact ⟨start, opened, h.append_other hevent⟩

theorem append_request (h : Matched protocol events tokens) (event : Event) (token : Token)
    (hevent : ¬ protocol.Reply event) (hopens : protocol.Opens event token) :
    Matched protocol (events ++ [event]) (insert token tokens) := by
  classical
  obtain ⟨start, opened, h⟩ := h
  exact ⟨start, _, h.append_request hevent hopens⟩

theorem append_reply (h : Matched protocol events tokens) {event : Event} {token : Token}
    (hmem : token ∈ tokens)
    (hanswers : ∀ request, protocol.Opens request token → protocol.Answers request event) :
    Matched protocol (events ++ [event]) (tokens \ {token}) := by
  obtain ⟨start, opened, h⟩ := h
  exact ⟨_, opened, h.append_reply hmem hanswers⟩

/-- A batch of replies, at most one to each of some open tokens, closes all these tokens. -/
theorem append_replies (h : Matched protocol events tokens) (batch : List Token)
    (replies : Token → List Event) (hmem : ∀ token ∈ batch, token ∈ tokens) (hnodup : batch.Nodup)
    (hreplies : ∀ token ∈ batch, replies token = [] ∨ ∃ reply, replies token = [reply] ∧
      ∀ request, protocol.Opens request token → protocol.Answers request reply) :
    Matched protocol (events ++ batch.flatMap replies) (tokens \ {token | token ∈ batch}) := by
  induction batch generalizing events tokens with
  | nil =>
    rw [List.flatMap_nil, List.append_nil]
    exact h.mono fun _ hother ↦ hother.1
  | cons token batch ih =>
    obtain ⟨hfresh, hnodup⟩ := List.nodup_cons.1 hnodup
    have hhead : Matched protocol (events ++ replies token) (tokens \ {token}) := by
      rcases hreplies token (List.mem_cons_self ..) with hnone | ⟨reply, hone, hanswers⟩
      · rw [hnone, List.append_nil]
        exact h.mono fun _ hother ↦ hother.1
      · rw [hone]
        exact h.append_reply (hmem token (List.mem_cons_self ..)) hanswers
    have htail := ih hhead (fun other hother ↦ ⟨hmem other (List.mem_cons_of_mem _ hother),
      fun heq ↦ hfresh (heq ▸ hother)⟩) hnodup
      fun other hother ↦ hreplies other (List.mem_cons_of_mem _ hother)
    rw [List.flatMap_cons, ← List.append_assoc]
    refine htail.mono fun other hother ↦ ?_
    simp only [Set.mem_sdiff, Set.mem_ofPred_eq, List.mem_cons, not_or] at hother
    exact ⟨⟨hother.1, hother.2.1⟩, hother.2.2⟩

end Matched

end KongFuChess.Matching
