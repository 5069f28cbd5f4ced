import Parley.Error
import Parley.Time.Instant
/-!
# Triggers

What starts or resumes a run: an event of some kind in a conversation, with a payload, on behalf of
an operator.
-/
namespace Parley

inductive Trigger
  | chatMessage
  | openChatWindow
  | addFriend
  | loopStart
  | paramCall
  | routine
deriving DecidableEq

namespace Trigger

def name : Trigger → String
  | .chatMessage => "chat_message"
  | .openChatWindow => "open_chat_window"
  | .addFriend => "add_friend"
  | .loopStart => "loop_start"
  | .paramCall => "param_call"
  | .routine => "routine"

def all : List Trigger :=
  [.chatMessage, .openChatWindow, .addFriend, .loopStart, .paramCall, .routine]

def named : List (String × Trigger) :=
  all.map fun t => (t.name, t)

def ofName (s : String) : Except Error Trigger :=
  match named.lookup s with
  | some t => .ok t
  | none => .error (.invalid (.trigger s))

def decoder : Decoder Trigger := Decoder.variant named

def toJson (t : Trigger) : Json := .str t.name

theorem ofName_name (t : Trigger) : ofName t.name = .ok t := by
  cases t <;> rfl

end Trigger

/-- The conversation that a run belongs to. -/
structure Scope where
  organization : String
  conversation : String
  /-- Where the event arrived when the run answers in another conversation. -/
  origin? : Option String := none
  topic : Option String := none
deriving DecidableEq

namespace Scope

/-- The conversation where the event arrived. -/
def origin (s : Scope) : String :=
  s.origin?.getD s.conversation

def decoder : Decoder Scope :=
  Record.decode "ConversationScope" <|
    Scope.mk <$> .required "organization_code" .string
      <*> .required "conversation_id" .string
      <*> .optional "origin_conversation_id" .string
      <*> .optional "topic_id" .string

def toJson (s : Scope) : Json :=
  .ofFields [("organization_code", .str s.organization), ("conversation_id", .str s.conversation),
    ("origin_conversation_id", .ofString? s.origin?), ("topic_id", .ofString? s.topic)]

end Scope

/-- On whose behalf a run goes on. -/
structure Operator where
  uid : String := ""
  nickname : String := ""
  organization : String := ""
deriving DecidableEq

namespace Operator

instance : Inhabited Operator := ⟨{}⟩

def decoder : Decoder Operator :=
  Record.decode "Operator" <|
    Operator.mk <$> .required "uid" .string
      <*> .withDefault "nickname" .string ""
      <*> .withDefault "organization_code" .string ""

def toJson (o : Operator) : Json :=
  .ofFields [("uid", .str o.uid), ("nickname", .str o.nickname),
    ("organization_code", .str o.organization)]

end Operator

def Instant.decoder : Decoder Instant
  | _, .str s =>
    match Instant.read s with
    | .ok t => .ok t
    | .error f => .error (.custom f.message)
  | _, d => .error (d.mismatch "an RFC 3339 formatted date and time string")

structure Event where
  trigger : Trigger
  scope : Scope
  payload : Json := .empty
  operator : Operator := {}
  receivedAt : Instant := default

namespace Event

def decoder : Decoder Event :=
  Record.decode "TriggerEvent" <|
    Event.mk <$> .required "trigger_type" Trigger.decoder
      <*> .required "scope" Scope.decoder
      <*> .withDefault "payload" .json .null
      <*> .withDefault "operator" Operator.decoder {}
      <*> .required "received_at" Instant.decoder

def toJson (e : Event) : Json :=
  .ofFields [("trigger_type", e.trigger.toJson), ("scope", e.scope.toJson),
    ("payload", e.payload), ("operator", e.operator.toJson),
    ("received_at", .str e.receivedAt.zuluText)]

def chatMessage (scope : Scope) (text : String) : Event :=
  { trigger := .chatMessage, scope, payload := .ofFields [("message", .str text)] }

end Event

end Parley
