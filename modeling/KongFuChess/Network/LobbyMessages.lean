import KongFuChess.Network.ServerMessages

/-!
# The messages around a game

What the server sends besides the game events: answers to logins, news of the queue and of a match,
and news of players who are away.
-/

namespace KongFuChess.Network

open Model Events Protocol

def serializeErrorMessage (message : StdString) : StdString :=
  "\x7b\"type\":\"error\",\"message\":".toList ++ quoteJsonString message ++ "\x7d".toList

def serializeLoginOk (color : StdString) : StdString :=
  "\x7b\"type\":\"login_ok\",\"color\":".toList ++ quoteJsonString color ++ "\x7d".toList

def serializeQueueJoined : StdString := "\x7b\"type\":\"queue_joined\"\x7d".toList

def serializeQueueLeft : StdString := "\x7b\"type\":\"queue_left\"\x7d".toList

def serializeQueueTimeout (message : StdString) : StdString :=
  "\x7b\"type\":\"queue_timeout\",\"message\":".toList ++ quoteJsonString message ++ "\x7d".toList

def serializeMatchFound (color opponent : StdString) (port : ℤ) : StdString :=
  "\x7b\"type\":\"match_found\"".toList ++ ",\"color\":".toList ++ quoteJsonString color ++
    ",\"opponent\":".toList ++ quoteJsonString opponent ++ ",\"port\":".toList ++
    Io.decimal port ++ "\x7d".toList

def serializePlayerDisconnected (username color : StdString) (graceSeconds : ℤ) : StdString :=
  "\x7b\"type\":\"player_disconnected\"".toList ++ ",\"username\":".toList ++
    quoteJsonString username ++ ",\"color\":".toList ++ quoteJsonString color ++
    ",\"grace_seconds\":".toList ++ Io.decimal graceSeconds ++ "\x7d".toList

def serializePlayerReconnected (username : StdString) : StdString :=
  "\x7b\"type\":\"player_reconnected\",\"username\":".toList ++ quoteJsonString username ++
    "\x7d".toList

structure MatchFoundMessage where
  color : Color := .white
  opponent : StdString
  port : ℤ := 0
deriving DecidableEq, Repr

def parseMatchFoundMessage (json : StdString) : Option MatchFoundMessage := do
  if parseServerMessageType json ≠ .matchFound then none
  else
    let color ← extractJsonString json "color".toList
    let opponent ← extractJsonString json "opponent".toList
    let port ← extractJsonInt json "port".toList
    some { color := colorFromLabel color, opponent := opponent, port := port }

def parseQueueTimeoutMessage (json : StdString) : Option StdString :=
  if parseServerMessageType json ≠ .queueTimeout then none
  else extractJsonString json "message".toList

structure PlayerDisconnectedMessage where
  username : StdString
  color : Color := .white
  graceSeconds : ℤ := 0
deriving DecidableEq, Repr

def parsePlayerDisconnectedMessage (json : StdString) : Option PlayerDisconnectedMessage := do
  if parseServerMessageType json ≠ .playerDisconnected then none
  else
    let username ← extractJsonString json "username".toList
    let color ← extractJsonString json "color".toList
    let graceSeconds ← extractJsonInt json "grace_seconds".toList
    some { username := username, color := colorFromLabel color, graceSeconds := graceSeconds }

def parsePlayerReconnectedMessage (json : StdString) : Option StdString :=
  if parseServerMessageType json ≠ .playerReconnected then none
  else extractJsonString json "username".toList

/-- A message to a client, before it is written out. -/
inductive ServerMessage
  | error (message : StdString)
  | loginOk (color : StdString)
  | queueJoined
  | queueLeft
  | queueTimeout (message : StdString)
  | matchFound (color opponent : StdString) (port : ℤ)
  | playerDisconnected (username color : StdString) (graceSeconds : ℤ)
  | playerReconnected (username : StdString)
  | gameEvent (event : GameEvent)
deriving DecidableEq, Repr

/-- The text that is sent. -/
def ServerMessage.text : ServerMessage → StdString
  | .error message => serializeErrorMessage message
  | .loginOk color => serializeLoginOk color
  | .queueJoined => serializeQueueJoined
  | .queueLeft => serializeQueueLeft
  | .queueTimeout message => serializeQueueTimeout message
  | .matchFound color opponent port => serializeMatchFound color opponent port
  | .playerDisconnected username color graceSeconds =>
    serializePlayerDisconnected username color graceSeconds
  | .playerReconnected username => serializePlayerReconnected username
  | .gameEvent event => serializeServerEvent event

end KongFuChess.Network
