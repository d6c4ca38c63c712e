import KongFuChess.Lobby.ShellLobby

/-!
# Lobbies that are told of one match

A lobby that is told of one match leaves its loop with this match. What it takes for that is that
all messages which are still to be applied are about the same two players, and that nothing is
found any more once the game has started.
-/

namespace KongFuChess.Session

open Model Events Network

/-- The colour of a player, if the other colour is for everybody but White. -/
def ownColor (white username : StdString) : Color := if username = white then .white else .black

def rival (white black username : StdString) : StdString :=
  if username = white then black else white

/-- The match is a match of the player, on the player's side. -/
structure MatchInfo.IsFor (info : MatchInfo) (username : StdString) : Prop where
  player : username = info.whiteUser ∨ username = info.blackUser
  color : info.color = .white ↔ username = info.whiteUser
  opponent : info.opponent = rival info.whiteUser info.blackUser username

theorem ownColor_eq_white_iff {white username : StdString} :
    ownColor white username = .white ↔ username = white := by
  unfold ownColor
  split
  · exact ⟨fun _ ↦ ‹_›, fun _ ↦ rfl⟩
  · exact ⟨fun h ↦ absurd h nofun, fun h ↦ absurd h ‹_›⟩

namespace ShellLobby

/-- The message tells of no match. -/
def Silent (json : StdString) : Prop :=
  parseMatchFoundMessage json = none ∧ parseGameStartedMessage json = none

instance (json : StdString) : Decidable (Silent json) := inferInstanceAs (Decidable (_ ∧ _))

/-- What a message tells the player is true of the match between `white` and `black`. -/
structure Fits (white black username json : StdString) : Prop where
  found : ∀ found ∈ parseMatchFoundMessage json,
    found.color = ownColor white username ∧ found.opponent = rival white black username
  started : ∀ started ∈ parseGameStartedMessage json,
    started.whiteUser = white ∧ started.blackUser = black

theorem Silent.fits {json : StdString} (h : Silent json) (white black username : StdString) :
    Fits white black username json where
  found := by
    rw [h.1]
    exact nofun
  started := by
    rw [h.2]
    exact nofun

/-- The lobby has not been told of a match, and is not told of one by its messages. -/
structure Untold (lobby : ShellLobby) (messages : List StdString) : Prop where
  silent : ∀ json ∈ messages, Silent json
  noMatch : lobby.pendingMatch = none
  stays : lobby.exitWithMatch = false

instance (lobby : ShellLobby) (messages : List StdString) : Decidable (lobby.Untold messages) :=
  decidable_of_iff ((∀ json ∈ messages, Silent json) ∧ lobby.pendingMatch = none ∧
    lobby.exitWithMatch = false)
    ⟨fun h ↦ ⟨h.1, h.2.1, h.2.2⟩, fun h ↦ ⟨h.silent, h.noMatch, h.stays⟩⟩

/-- The lobby and its messages are about the match between `white` and `black` only. -/
structure Told (white black : StdString) (lobby : ShellLobby) (messages : List StdString) :
    Prop where
  player : lobby.state.username = white ∨ lobby.state.username = black
  fits : ∀ json ∈ messages, Fits white black lobby.state.username json
  ordered : messages.Pairwise fun earlier later ↦
    parseGameStartedMessage earlier ≠ none → parseMatchFoundMessage later = none
  pending : ∀ info ∈ lobby.pendingMatch, info.color = ownColor white lobby.state.username ∧
    info.opponent = rival white black lobby.state.username
  started : lobby.exitWithMatch = true → (∀ json ∈ messages, parseMatchFoundMessage json = none) ∧
    ∃ info ∈ lobby.pendingMatch, info.whiteUser = white ∧ info.blackUser = black

section Untold

variable {lobby : ShellLobby} {messages : List StdString}

theorem Untold.apply {json : StdString} (h : lobby.Untold (json :: messages)) :
    (lobby.applyServerMessage json).Untold messages := by
  have hjson := h.silent json (List.mem_cons_self ..)
  rcases lobby.applyServerMessage_cases json with
    ⟨found, hfound, -⟩ | ⟨started, hstarted, -⟩ | ⟨-, hexit, hmatch⟩
  · exact absurd (hfound.symm.trans hjson.1) nofun
  · exact absurd (hstarted.symm.trans hjson.2) nofun
  · constructor
    · exact fun other hother ↦ h.silent other (List.mem_cons_of_mem _ hother)
    · exact hmatch.trans h.noMatch
    · exact hexit.trans h.stays

theorem Untold.foldl {pending : List StdString} (h : lobby.Untold (pending ++ messages)) :
    (pending.foldl applyServerMessage lobby).Untold messages := by
  induction pending generalizing lobby with
  | nil => exact h
  | cons json pending ih => exact ih h.apply

theorem Untold.drain (h : lobby.Untold (lobby.pendingMessages ++ messages)) :
    lobby.drainPendingMessages.Untold messages := by
  have hswapped : ({ lobby with pendingMessages := [] } : ShellLobby).Untold
      (lobby.pendingMessages ++ messages) := ⟨h.silent, h.noMatch, h.stays⟩
  exact hswapped.foldl

theorem Untold.append (h : lobby.Untold messages) {more : List StdString}
    (hmore : ∀ json ∈ more, Silent json) : lobby.Untold (messages ++ more) := by
  refine ⟨fun json hjson ↦ ?_, h.noMatch, h.stays⟩
  rcases List.mem_append.1 hjson with hold | hnew
  · exact h.silent json hold
  · exact hmore json hnew

/-- The first news of a match. -/
theorem Untold.told (h : lobby.Untold messages) {white black : StdString}
    (hplayer : lobby.state.username = white ∨ lobby.state.username = black)
    {more : List StdString} (hfits : ∀ json ∈ more, Fits white black lobby.state.username json)
    (hordered : more.Pairwise fun earlier later ↦
      parseGameStartedMessage earlier ≠ none → parseMatchFoundMessage later = none) :
    lobby.Told white black (messages ++ more) := by
  constructor
  · exact hplayer
  · intro json hjson
    rcases List.mem_append.1 hjson with hold | hnew
    · exact (h.silent json hold).fits ..
    · exact hfits json hnew
  · refine List.pairwise_append.2 ⟨?_, hordered, ?_⟩
    · refine List.pairwise_of_forall_mem_list fun earlier hearlier later hlater ↦ ?_
      exact fun _ ↦ (h.silent later hlater).1
    · exact fun earlier hearlier _ _ hstarted ↦ absurd (h.silent earlier hearlier).2 hstarted
  · rw [h.noMatch]
    exact nofun
  · rw [h.stays]
    exact nofun

end Untold

section Told

variable {white black : StdString} {lobby : ShellLobby} {messages : List StdString}

/-- Whoever is told of the game first takes the match from the roster. -/
theorem resumedMatch_of_roster (lobby : ShellLobby) (started : GameStarted) :
    (lobby.resumedMatch started).color = ownColor started.whiteUser lobby.state.username ∧
      (lobby.resumedMatch started).opponent =
        rival started.whiteUser started.blackUser lobby.state.username := by
  unfold resumedMatch ownColor rival
  by_cases hself : started.whiteUser = lobby.state.username
  · rw [if_pos hself, if_pos hself.symm, if_pos hself.symm]
    exact ⟨rfl, rfl⟩
  · rw [if_neg hself, if_neg (Ne.symm hself), if_neg (Ne.symm hself)]
    exact ⟨rfl, rfl⟩

theorem Told.pending_getD (h : lobby.Told white black messages) {started : GameStarted}
    (hwhite : started.whiteUser = white) (hblack : started.blackUser = black) :
    (lobby.pendingMatch.getD (lobby.resumedMatch started)).color =
        ownColor white lobby.state.username ∧
      (lobby.pendingMatch.getD (lobby.resumedMatch started)).opponent =
        rival white black lobby.state.username := by
  cases hpending : lobby.pendingMatch with
  | none =>
    rw [← hwhite, ← hblack]
    exact lobby.resumedMatch_of_roster started
  | some info => exact h.pending info hpending

theorem Told.apply {json : StdString} (h : lobby.Told white black (json :: messages)) :
    (lobby.applyServerMessage json).Told white black messages := by
  have hjson := h.fits json (List.mem_cons_self ..)
  obtain ⟨hfirst, hordered⟩ := List.pairwise_cons.1 h.ordered
  have hfits : ∀ other ∈ messages, Fits white black
      (lobby.applyServerMessage json).state.username other := by
    intro other hother
    rw [username_applyServerMessage]
    exact h.fits other (List.mem_cons_of_mem _ hother)
  have hplayer : (lobby.applyServerMessage json).state.username = white ∨
      (lobby.applyServerMessage json).state.username = black := by
    rw [username_applyServerMessage]
    exact h.player
  rcases lobby.applyServerMessage_cases json with
    ⟨found, hfound, -, hexit, hmatch⟩ | ⟨started, hstarted, hexit, hmatch⟩ | ⟨-, hexit, hmatch⟩
  · refine ⟨hplayer, hfits, hordered, ?_, fun hstarted ↦ ?_⟩
    · rw [username_applyServerMessage, hmatch]
      intro info hinfo
      rw [← Option.some.inj hinfo]
      exact hjson.found found hfound
    · -- Nothing is found any more once the game has started.
      have hnone := (h.started (hexit.symm.trans hstarted)).1 json (List.mem_cons_self ..)
      exact absurd (hfound.symm.trans hnone) nofun
  · obtain ⟨hwhite, hblack⟩ := hjson.started started hstarted
    refine ⟨hplayer, hfits, hordered, ?_, fun _ ↦ ⟨?_, ?_⟩⟩
    · rw [username_applyServerMessage, hmatch]
      intro info hinfo
      rw [← Option.some.inj hinfo]
      exact h.pending_getD hwhite hblack
    · exact fun other hother ↦ hfirst other hother (hstarted ▸ nofun)
    · exact ⟨_, hmatch, hwhite, hblack⟩
  · refine ⟨hplayer, hfits, hordered, ?_, ?_⟩
    · rw [username_applyServerMessage, hmatch]
      exact h.pending
    · rw [hexit, hmatch]
      intro hstarted
      obtain ⟨hnone, hroster⟩ := h.started hstarted
      exact ⟨fun other hother ↦ hnone other (List.mem_cons_of_mem _ hother), hroster⟩

theorem Told.foldl {pending : List StdString} (h : lobby.Told white black (pending ++ messages)) :
    (pending.foldl applyServerMessage lobby).Told white black messages := by
  induction pending generalizing lobby with
  | nil => exact h
  | cons json pending ih => exact ih h.apply

theorem Told.drain (h : lobby.Told white black (lobby.pendingMessages ++ messages)) :
    lobby.drainPendingMessages.Told white black messages := by
  have hswapped : ({ lobby with pendingMessages := [] } : ShellLobby).Told white black
      (lobby.pendingMessages ++ messages) := ⟨h.player, h.fits, h.ordered, h.pending, h.started⟩
  exact hswapped.foldl

/-- More news of the same game. -/
theorem Told.append (h : lobby.Told white black messages) {more : List StdString}
    (hfits : ∀ json ∈ more, Fits white black lobby.state.username json)
    (hnone : ∀ json ∈ more, parseMatchFoundMessage json = none) :
    lobby.Told white black (messages ++ more) := by
  constructor
  · exact h.player
  · intro json hjson
    rcases List.mem_append.1 hjson with hold | hnew
    · exact h.fits json hold
    · exact hfits json hnew
  · refine List.pairwise_append.2 ⟨h.ordered, ?_, fun _ _ later hlater _ ↦ hnone later hlater⟩
    exact List.pairwise_of_forall_mem_list fun _ _ later hlater _ ↦ hnone later hlater
  · exact h.pending
  · intro hstarted
    obtain ⟨hold, hroster⟩ := h.started hstarted
    refine ⟨fun json hjson ↦ ?_, hroster⟩
    rcases List.mem_append.1 hjson with hmem | hnew
    · exact hold json hmem
    · exact hnone json hnew

/-- The lobby leaves with the match that it was told of. -/
theorem Told.isFor (h : lobby.Told white black messages) (hexit : lobby.exitWithMatch = true)
    {info : MatchInfo} (hinfo : lobby.pendingMatch = some info) :
    info.IsFor lobby.state.username := by
  obtain ⟨-, other, hother, rfl, rfl⟩ := h.started hexit
  obtain rfl := Option.some.inj (hother.symm.trans hinfo)
  obtain ⟨hcolor, hopponent⟩ := h.pending _ hinfo
  refine ⟨h.player, ?_, hopponent⟩
  rw [hcolor]
  exact ownColor_eq_white_iff

end Told

end ShellLobby

end KongFuChess.Session
