import Parley.Runner.Basic
/-!
# Reply nodes

A reply node sends the text of a value to the conversation of the run.
-/
namespace Parley.Runner.Reply

structure Params where
  content : Json

def Params.decoder : Decoder Params :=
  Record.decode "ReplyParams" <|
    Params.mk <$> .required "content" .json

end Reply

def reply : Runner := fun around call => do
  let params ← Task.ofExcept (parameters Reply.Params.decoder call)
  let ctx := (← get).context
  let v ← Task.ofExcept (value around ctx params.content)
  let content := String.ofList (Template.display v)
  Task.send ctx.scope content
  report fun r => r.withResult (.ofFields [("content", .str content)])

end Parley.Runner
