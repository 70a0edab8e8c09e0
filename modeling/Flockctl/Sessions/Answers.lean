import Flockctl.Sessions.Questions
import Flockctl.Transition.Run

/-!
# Where the text of an answer goes

The desk of the questions together with the texts: the `answer` column, and what each session has
for the input of its model calls. A session that waits gets the text as the result of its tool
call. On the cold path no session is there to take it: the row keeps it, and the session that
resumes the task starts out with the message every resumed session gets.
-/

namespace Flockctl.Sessions

open Collections Paths Permissions Tasks

abbrev Text := List Char

/-- An answer that was accepted; `takenBy` is the session it was handed to, if one was there. -/
structure AcceptedAnswer where
  requestId : RequestId
  ref : AgentRef
  text : Text
  takenBy : Option ℕ
  deriving DecidableEq, Repr

/-- `inputs` holds the messages of every session that has run. `accepted` records the accepted
answers, `waiting` those since which no model call was made for the task or chat, and `heard` the
others with the input of the first such call. -/
structure AnswerDesk where
  desk : QuestionDesk := {}
  answers : JsMap RequestId Text := JsMap.empty
  inputs : JsMap ℕ (List Text) := JsMap.empty
  accepted : List AcceptedAnswer := []
  waiting : List AcceptedAnswer := []
  heard : List (AcceptedAnswer × List Text) := []

/-- The message of a session that resumes a task. -/
def continuation : Text :=
  "Continue from where you left off. The previous run was interrupted.".toList

/-- The messages `run` starts with. A session id that is missing or empty resumes nothing. -/
def startMessages (resumeSessionId : Option Text) (useResumeContinuationPrompt : Bool)
    (prompt : Text) (priorMessages : List Text) : List Text :=
  let isResume := resumeSessionId.any fun id ↦ !id.isEmpty
  (if isResume then [] else priorMessages) ++
    [if isResume && useResumeContinuationPrompt then continuation else prompt]

/-- The session has a question open. -/
def AgentSession.hasQuestion (session : AgentSession) : Bool :=
  session.pendingInteractive.entries.any fun entry ↦
    match entry.2 with
    | .question => true
    | .permission _ _ => false

namespace AnswerDesk

def inputOf (s : AnswerDesk) (number : ℕ) : List Text := (s.inputs.get number).getD []

/-- A session is created and starts its run. -/
def start (s : AnswerDesk) (ref : AgentRef) (mode : PermissionMode) (roots : List AbsolutePath)
    (messages : List Text) : AnswerDesk :=
  { s with
    desk := s.desk.register ref mode roots
    inputs := s.inputs.set s.desk.created messages }

/-- The text becomes the result of the tool call that asked. -/
def handTo (s : AnswerDesk) (text : Text) : Option ℕ → AnswerDesk
  | none => s
  | some number => { s with inputs := s.inputs.set number (s.inputOf number ++ [text]) }

/-- `answerQuestion`, with the text it is called with. -/
def answer (s : AnswerDesk) (ref : AgentRef) (requestId : RequestId) (text : Text) :
    AnswerDesk × Bool :=
  match s.desk.answerQuestion ref requestId with
  | (desk, false) => ({ s with desk := desk }, false)
  | (desk, true) =>
    let takenBy := (s.desk.registeredSession ref).map Prod.fst
    let record : AcceptedAnswer :=
      { requestId := requestId, ref := ref, text := text, takenBy := takenBy }
    ({ s.handTo text takenBy with
        desk := desk
        answers := s.answers.set requestId text
        accepted := s.accepted ++ [record]
        waiting := s.waiting ++ [record] }, true)

/-- A session calls the model with all its messages; it does not while a question is open or after
an abort. -/
def modelCall (s : AnswerDesk) (number : ℕ) : AnswerDesk :=
  match s.desk.sessions.get number with
  | none => s
  | some session =>
    if session.aborted || session.hasQuestion then s
    else
      { s with
        waiting := s.waiting.filter fun a ↦ a.ref ≠ session.ref
        heard := s.heard ++ (s.waiting.filter fun a ↦ a.ref = session.ref).map
          fun a ↦ (a, s.inputOf number) }

end AnswerDesk

/-- `desk` stands for what happens to questions and sessions otherwise; new sessions and answers
come with their texts. -/
inductive AnswerEvent
  | start (ref : AgentRef) (mode : PermissionMode) (roots : List AbsolutePath)
      (resumeSessionId : Option Text) (useResumeContinuationPrompt : Bool) (prompt : Text)
      (priorMessages : List Text)
  | answer (ref : AgentRef) (requestId : RequestId) (text : Text)
  | modelCall (number : ℕ)
  | desk (event : DeskEvent)

def AnswerDesk.step (host : Host) (s : AnswerDesk) : AnswerEvent → AnswerDesk
  | .start ref mode roots resumeSessionId useResumeContinuationPrompt prompt priorMessages =>
    s.start ref mode roots
      (startMessages resumeSessionId useResumeContinuationPrompt prompt priorMessages)
  | .answer ref requestId text => (s.answer ref requestId text).1
  | .modelCall number => s.modelCall number
  | .desk event =>
    match event with
    | .register _ _ _ | .answer _ _ => s
    | _ => { s with desk := s.desk.step host event }

end Flockctl.Sessions
