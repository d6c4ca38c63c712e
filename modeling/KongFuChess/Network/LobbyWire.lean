import KongFuChess.Network.Escapes

/-!
# Lobby messages on the wire

The messages with one text come back whatever the text is. Where a username stands in front of
another field, the message comes back unless the username hides the key of that field.
-/

namespace KongFuChess.Network

open Model Events Protocol JsonFields

@[simp]
theorem colorFromLabel_colorLabel (color : Color) : colorFromLabel (colorLabel color) = color := by
  cases color <;> decide

theorem noNul_colorLabel (color : Color) : '\x00' ∉ colorLabel color := by
  cases color <;> decide

theorem not_hides_colorLabel (color : Color) {key : StdString}
    (hkey : key ∈ [matchFoundKeys.secondKey, matchFoundKeys.numberKey,
      playerDisconnectedKeys.numberKey]) : ¬ Hides (colorLabel color) key := by
  cases color with
  | white => exact (show ∀ key ∈ _, ¬ Hides (colorLabel .white) key by decide) key hkey
  | black => exact (show ∀ key ∈ _, ¬ Hides (colorLabel .black) key by decide) key hkey

theorem parsePlayerDisconnectedMessage_eq (username label : StdString) (graceSeconds : ℤ) :
    parsePlayerDisconnectedMessage (serializePlayerDisconnected username label graceSeconds) =
      if playerDisconnectedKeys.Lost username label then none
      else some
        { username := username
          color := colorFromLabel label
          graceSeconds := toInt (max (-2 ^ 63) (min (2 ^ 63 - 1) graceSeconds)) } := by
  have htext := serializePlayerDisconnected_eq username label graceSeconds
  rw [parsePlayerDisconnectedMessage, if_neg]
  · exact playerDisconnectedKeys.parse username label graceSeconds _ htext
  · rw [htext, playerDisconnectedKeys.parseType]
    exact fun h ↦ h rfl

theorem parsePlayerReconnectedMessage_serialize {username : StdString} (h : '\x00' ∉ username) :
    parsePlayerReconnectedMessage (serializePlayerReconnected username) = some username := by
  have htext : serializePlayerReconnected username =
      write '{' [("type".toList, .text "player_reconnected".toList),
        ("username".toList, .text username)] := by
    unfold serializePlayerReconnected
    simp only [List.append_assoc]
    rfl
  have htype : parseServerMessageType (serializePlayerReconnected username) = .playerReconnected :=
    parseServerMessageType_text (.playerReconnected username)
  rw [parsePlayerReconnectedMessage, htype, if_neg (not_not.2 rfl), htext]
  exact extractJsonString_oneText (by decide) (by decide) (by decide) (by decide) h

theorem parseQueueTimeoutMessage_serialize {message : StdString} (h : '\x00' ∉ message) :
    parseQueueTimeoutMessage (serializeQueueTimeout message) = some message := by
  have htext : serializeQueueTimeout message =
      write '{' [("type".toList, .text "queue_timeout".toList),
        ("message".toList, .text message)] := by
    unfold serializeQueueTimeout
    simp only [List.append_assoc]
    rfl
  have htype : parseServerMessageType (serializeQueueTimeout message) = .queueTimeout :=
    parseServerMessageType_text (.queueTimeout message)
  rw [parseQueueTimeoutMessage, htype, if_neg (not_not.2 rfl), htext]
  exact extractJsonString_oneText (by decide) (by decide) (by decide) (by decide) h

theorem matchFound_readBack_iff (color : Color) {opponent : StdString} {port : ℤ}
    (hopponent : '\x00' ∉ opponent) (hport : InIntRange port) :
    parseMatchFoundMessage (serializeMatchFound (colorLabel color) opponent port) =
        some { color := color, opponent := opponent, port := port } ↔
      ¬ Hides opponent "port".toList := by
  have hlost : matchFoundKeys.Lost (colorLabel color) opponent ↔ Hides opponent "port".toList := by
    have hsecond : ¬ Hides (colorLabel color) matchFoundKeys.secondKey :=
      not_hides_colorLabel color (by simp)
    have hnumber : ¬ Hides (colorLabel color) matchFoundKeys.numberKey :=
      not_hides_colorLabel color (by simp)
    simp only [TwoTexts.Lost, noNul_colorLabel, hopponent, hsecond, hnumber, false_or]
    rfl
  rw [parseMatchFoundMessage_eq, colorFromLabel_colorLabel, toInt_of_inIntRange hport,
    Option.ite_none_left_eq_some, hlost, and_iff_left rfl]

theorem gameStarted_readBack_iff {event : GameStarted} (hwhite : '\x00' ∉ event.whiteUser)
    (hblack : '\x00' ∉ event.blackUser) (hport : InIntRange event.port) :
    parseGameStartedMessage (serializeServerEvent (.gameStarted event)) = some event ↔
      ¬ Hides event.whiteUser "black".toList ∧ ¬ Hides event.whiteUser "port".toList ∧
        ¬ Hides event.blackUser "port".toList := by
  have hlost : gameStartedKeys.Lost event.whiteUser event.blackUser ↔
      Hides event.whiteUser "black".toList ∨ Hides event.whiteUser "port".toList ∨
        Hides event.blackUser "port".toList := by
    simp only [TwoTexts.Lost, hwhite, hblack, false_or]
    rfl
  rw [serializeServerEvent, parseGameStartedMessage_eq, toInt_of_inIntRange hport,
    Option.ite_none_left_eq_some, hlost, and_iff_left rfl, not_or, not_or]

theorem playerDisconnected_readBack_iff (color : Color) {username : StdString} {graceSeconds : ℤ}
    (husername : '\x00' ∉ username) (hgrace : InIntRange graceSeconds) :
    parsePlayerDisconnectedMessage
          (serializePlayerDisconnected username (colorLabel color) graceSeconds) =
        some { username := username, color := color, graceSeconds := graceSeconds } ↔
      ¬ Hides username "color".toList ∧ ¬ Hides username "grace_seconds".toList := by
  have hlost : playerDisconnectedKeys.Lost username (colorLabel color) ↔
      Hides username "color".toList ∨ Hides username "grace_seconds".toList := by
    have hnumber : ¬ Hides (colorLabel color) playerDisconnectedKeys.numberKey :=
      not_hides_colorLabel color (by simp)
    simp only [TwoTexts.Lost, noNul_colorLabel, husername, hnumber, false_or, or_false]
    rfl
  rw [parsePlayerDisconnectedMessage_eq, colorFromLabel_colorLabel, toInt_of_inIntRange hgrace,
    Option.ite_none_left_eq_some, hlost, and_iff_left rfl, not_or]

/-- Each lobby message comes back as it was written, unless a username in front of another field
hides the key of that field. -/
theorem lobbyMessages_readBack_iff (color : Color)
    {opponent white black username text : StdString} {port graceSeconds : ℤ}
    (hopponent : '\x00' ∉ opponent) (hwhite : '\x00' ∉ white) (hblack : '\x00' ∉ black)
    (husername : '\x00' ∉ username) (htext : '\x00' ∉ text) (hport : InIntRange port)
    (hgrace : InIntRange graceSeconds) :
    (parseMatchFoundMessage (serializeMatchFound (colorLabel color) opponent port) =
        some { color := color, opponent := opponent, port := port } ↔
      ¬ Hides opponent "port".toList) ∧
    (parseGameStartedMessage (serializeServerEvent
          (.gameStarted { whiteUser := white, blackUser := black, port := port })) =
        some { whiteUser := white, blackUser := black, port := port } ↔
      ¬ Hides white "black".toList ∧ ¬ Hides white "port".toList ∧
        ¬ Hides black "port".toList) ∧
    (parsePlayerDisconnectedMessage
          (serializePlayerDisconnected username (colorLabel color) graceSeconds) =
        some { username := username, color := color, graceSeconds := graceSeconds } ↔
      ¬ Hides username "color".toList ∧ ¬ Hides username "grace_seconds".toList) ∧
    parsePlayerReconnectedMessage (serializePlayerReconnected username) = some username ∧
    parseQueueTimeoutMessage (serializeQueueTimeout text) = some text := by
  refine ⟨matchFound_readBack_iff color hopponent hport, ?_,
    playerDisconnected_readBack_iff color husername hgrace,
    parsePlayerReconnectedMessage_serialize husername, parseQueueTimeoutMessage_serialize htext⟩
  let event : GameStarted := { whiteUser := white, blackUser := black, port := port }
  have hwhite' : '\x00' ∉ event.whiteUser := hwhite
  exact gameStarted_readBack_iff hwhite' hblack hport

theorem lobbyMessages_readBack_of_quoted :
    (parseMatchFoundMessage (serializeMatchFound (colorLabel .black) "\"port\"".toList 8080) =
        some { color := .black, opponent := "\"port\"".toList, port := 8080 } ↔
      ¬ Hides "\"port\"".toList "port".toList) ∧
    (parseGameStartedMessage (serializeServerEvent (.gameStarted
          { whiteUser := "ann".toList, blackUser := "port".toList, port := 8080 })) =
        some { whiteUser := "ann".toList, blackUser := "port".toList, port := 8080 } ↔
      ¬ Hides "ann".toList "black".toList ∧ ¬ Hides "ann".toList "port".toList ∧
        ¬ Hides "port".toList "port".toList) ∧
    (parsePlayerDisconnectedMessage
          (serializePlayerDisconnected "\\".toList (colorLabel .black) (-1)) =
        some { username := "\\".toList, color := .black, graceSeconds := -1 } ↔
      ¬ Hides "\\".toList "color".toList ∧ ¬ Hides "\\".toList "grace_seconds".toList) ∧
    parsePlayerReconnectedMessage (serializePlayerReconnected "\\".toList) =
      some "\\".toList ∧
    parseQueueTimeoutMessage (serializeQueueTimeout []) = some [] :=
  lobbyMessages_readBack_iff .black (by decide) (by decide) (by decide) (by decide) (by decide)
    (by decide) (by decide)

/-- The reader finds no port behind an opponent of this name. -/
theorem matchFound_lost :
    parseMatchFoundMessage (serializeMatchFound (colorLabel .white) "port".toList 8080) ≠
      some { color := .white, opponent := "port".toList, port := 8080 } := by
  rw [ne_eq, matchFound_readBack_iff .white (by decide) (by decide), not_not]
  decide

end KongFuChess.Network
