import NervesHubLink.Bench
import NervesHubLink.Theorems.Terminal

/-! What is typed in one frame after another, and what comes of it. -/

namespace NervesHub
open Act Prog Transducer

/-! ### What is seen of the terminal -/

/-- What a message writes to the terminal. -/
def Envelope.upText (m : Envelope) : Option String :=
  if m.topic = consoleTopic ∧ m.event = event.up then
    match m.payload with
    | .value v => (v.get "data").bind Value.asStr
    | .batch _ => none
  else none

inductive Seen where
  | ran (name : String) (args : List String)
  | told (text : String)
  | restarted
  deriving DecidableEq

def Seen.of : Event → Option Seen
  | .ran name args => some (.ran name args)
  | .sent m (.ok ()) => m.upText.map .told
  | .restarted => some .restarted
  | _ => none

def Seen.command : Seen → Option (String × List String)
  | .ran name args => some (name, args)
  | _ => none

/-- What is seen in a record, the first first. -/
def seen (t : List Event) : List Seen := t.reverse.filterMap Seen.of

@[simp] theorem seen_cons (e : Event) (t : List Event) : seen (e :: t) = seen t ++ (Seen.of e).toList := by
  cases h : Seen.of e <;> simp [seen, h]

/-! ### Lines and what they are due -/

/-- Whether the agent restarts for the line. -/
def isReboot (line : String) : Bool := (parse line).any (·.1 == "reboot")

section
variable {σ : Type}

/-- The registered command that a line runs. -/
def commandOf (commands : List (Command σ)) (line : String) : Option (String × List String) :=
  (parse line).filter fun call =>
    call.1 != "log" && call.1 != "help" && (commands.find? (·.name == call.1)).isSome

/-- The lines that are answered: those up to a reboot, and that one. -/
def answered : List String → List String
  | [] => []
  | line :: rest => if isReboot line then [line] else line :: answered rest

theorem answered_append (a b : List String) :
    answered (a ++ b) = if a.any isReboot then answered a else answered a ++ answered b := by
  induction a with
  | nil => rfl
  | cons line rest ih =>
    rw [List.cons_append, answered, answered, ih, List.any_cons]
    cases isReboot line with
    | true => rfl
    | false => cases hrest : rest.any isReboot <;> simp

/-- What is sent back to the terminal: the echo of a frame that completes no line, or the answer to a line. -/
inductive Reply where
  | echo (text : String)
  | answer (line : String) (text : String)
  | reboot (line : String) (text : String)

namespace Reply

def line : Reply → Option String
  | .echo _ => none
  | .answer line _ => some line
  | .reboot line _ => some line

/-- What is seen of it: one message, after the command if the line ran one. -/
def seen (commands : List (Command σ)) : Reply → List Seen
  | .echo text => [.told text]
  | .answer line text => ((commandOf commands line).map fun call => Seen.ran call.1 call.2).toList ++ [.told text]
  | .reboot _ text => [.told text, .restarted]

/-- An answer has what the line printed, and ends with the prompt; the last one says that the device restarts. -/
def Proper [Serde] (commands : List (Command σ)) : Reply → Prop
  | .echo text => text ≠ ""
  | .answer line text => ¬ isReboot line ∧ ∃ (echo output : String) (s : World σ),
      (Console.run commands (parse line) s).1 = .ret output ∧
        text = echo ++ (if output.isEmpty then "" else output ++ "\r\n") ++ prompt
  | .reboot line text => isReboot line ∧ ∃ echo, text = echo ++ "rebooting\r\n"

end Reply

/-- The replies to these lines. -/
structure Replies [Serde] (commands : List (Command σ)) (lines : List String) (replies : List Reply) : Prop where
  lines : replies.filterMap Reply.line = answered lines
  proper : ∀ r ∈ replies, r.Proper commands

/-! ### One line -/

variable [Serde] {agent : Agent σ}

/-- What one program leaves of the terminal: it returns `a`, the reader is as it was, and this is seen. -/
structure LeavesSeen {α : Type} (m : Run σ α) (s : World σ) (a : α) (t : World σ) (new : List Seen) : Prop where
  ret : m s = (.ret a, t)
  reader : t.own.reader = s.own.reader
  seen : seen t.trace = NervesHub.seen s.trace ++ new

omit [Serde] in
theorem LeavesSeen.bind {α β : Type} {m : Run σ α} {k : α → Run σ β} {s t u : World σ} {a : α} {b : β}
    {new more : List Seen} (hm : LeavesSeen m s a t new) (hk : LeavesSeen (k a) t b u more) :
    LeavesSeen (m >>= k) s b u (new ++ more) where
  ret := (bind_ret hm.ret).trans hk.ret
  reader := hk.reader.trans hm.reader
  seen := by rw [hk.seen, hm.seen, List.append_assoc]

omit [Serde] in
theorem LeavesSeen.pure {α : Type} (a : α) (s : World σ) : LeavesSeen (Pure.pure a : Run σ α) s a s [] :=
  ⟨rfl, rfl, (List.append_nil _).symm⟩

theorem logCommand_leaves (args : List String) (s : World σ) :
    ∃ output t, LeavesSeen (logCommand args : Run σ String) s output t [] := by
  have hsame : ∀ output, (logCommand args : Run σ String) s = (.ret output, s) →
      ∃ output t, LeavesSeen (logCommand args : Run σ String) s output t [] := fun output h =>
    ⟨output, s, h, rfl, (List.append_nil _).symm⟩
  cases hlogs : s.own.logs with
  | none =>
    exact hsame (Output.new.writeStr "log: this device is not sending logs to NervesHub").finish
      (by simp [logCommand, own, hlogs])
  | some b =>
    cases args with
    | nil =>
      exact hsame (Output.new.writePieces ["log level is ", b.level.asStr.toLower]).finish
        (by simp [logCommand, own, hlogs])
    | cons level rest =>
      cases hlevel : Level.parse level with
      | none =>
        exact hsame (Output.new.writePieces
            ["log: unknown level ", Serde.debugStr level, ", try error/warn/info/debug/trace"]).finish
          (by simp [logCommand, own, hlogs, hlevel])
      | some l =>
        refine ⟨(Output.new.writePieces ["log level is now ", l.asStr.toLower]).finish,
          { s with own := { s.own with logs := some (b.setLevel l) } }, ?_, rfl, (List.append_nil _).symm⟩
        simp [logCommand, own, onLogs, hlogs, hlevel, update, bind_apply]

theorem run_leaves (commands : List (Command σ)) (line : String) (s : World σ) :
    ∃ output t, LeavesSeen (Console.run commands (parse line)) s output t
      ((commandOf commands line).map fun call => Seen.ran call.1 call.2).toList := by
  have hnone : ∀ output, commandOf commands line = none → Console.run commands (parse line) s = (.ret output, s) →
      ∃ output t, LeavesSeen (Console.run commands (parse line)) s output t
        ((commandOf commands line).map fun call => Seen.ran call.1 call.2).toList := by
    intro output hcommand hrun
    rw [hcommand]
    exact ⟨output, s, hrun, rfl, (List.append_nil _).symm⟩
  cases hline : parse line with
  | none => exact hline ▸ hnone "" (by simp [commandOf, hline]) (by rw [hline]; rfl)
  | some call =>
    obtain ⟨name, args⟩ := call
    rw [← hline]
    by_cases hlog : name = "log"
    · have hcommand : commandOf commands line = none := by simp [commandOf, hline, hlog, Option.filter]
      obtain ⟨output, t, h⟩ := logCommand_leaves args s
      refine ⟨output, t, ?_⟩
      rw [hcommand, hline, Console.run, if_pos hlog]
      exact h
    by_cases hhelp : name = "help"
    · refine hnone (helpOutput commands) (by simp [commandOf, hline, hhelp, Option.filter]) ?_
      rw [hline, Console.run, if_neg hlog, if_pos hhelp]
      rfl
    cases hfind : commands.find? (·.name == name) with
    | none =>
      refine hnone (unknownCommand name) (by simp [commandOf, hline, hfind, Option.filter]) ?_
      rw [hline, Console.run, if_neg hlog, if_neg hhelp, hfind]
      rfl
    | some command =>
      have hcommand : commandOf commands line = some (name, args) := by
        simp [commandOf, hline, hlog, hhelp, hfind, Option.filter]
      rw [hcommand, hline, Console.run, if_neg hlog, if_neg hhelp, hfind]
      refine ⟨_, { s with env := (command.run args s.env).2, trace := .ran name args :: s.trace }, rfl, rfl, ?_⟩
      exact seen_cons _ _

/-- With every send succeeding. -/
def SendsSucceed (agent : Agent σ) : Prop := ∀ frame env, (agent.platform.send frame env).1 = .ok ()

theorem sendConsole_leaves (hsend : SendsSucceed agent) (text : String) (htext : text ≠ "") (s : World σ) :
    ∃ t, LeavesSeen (Link.sendConsole agent text) s () t [.told text] := by
  have hempty : ¬ text.isEmpty = true := by simpa using htext
  have hget : (Value.obj [("data", .string text)]).get "data" = some (.string text) :=
    (Value.get_obj (by simp)).mpr List.mem_cons_self
  let m : Envelope := ⟨s.own.link.consoleJoinRef, some s.own.link.refs.nextRef.1, consoleTopic, event.up,
    .value (.obj [("data", .string text)])⟩
  let frame := encodeFrame s.own.link.config.serializer m
  have hup : m.upText = some text := by
    rw [Envelope.upText, if_pos ⟨rfl, rfl⟩]
    simp only [m, hget]
    rfl
  let s₁ : World σ := { s with own := { s.own with link := { s.own.link with refs := s.own.link.refs.nextRef.2 } } }
  have hsent : (tryCall (agent.platform.send frame) (fun r => [.sent m r]) : Run σ Unit) s₁ =
      (.ret (), { s₁ with env := (agent.platform.send frame s₁.env).2, trace := .sent m (.ok ()) :: s₁.trace }) :=
    tryCall_ok (hsend frame s₁.env)
  have hwrite : Link.write agent m s₁ =
      (.ret (), { s₁ with env := (agent.platform.send frame s₁.env).2, trace := .sent m (.ok ()) :: s₁.trace }) :=
    (bind_ret rfl).trans hsent
  refine ⟨{ s₁ with env := (agent.platform.send frame s₁.env).2, trace := .sent m (.ok ()) :: s₁.trace }, ?_, rfl, ?_⟩
  · unfold Link.sendConsole
    rw [if_neg hempty]
    exact (bind_ret (t := s₁) rfl).trans ((bind_ret (t := s₁) rfl).trans hwrite)
  · rw [seen_cons, Seen.of, hup]
    rfl

theorem Reply.proper_answer {commands : List (Command σ)} {line output : String} {s t : World σ}
    (hno : isReboot line = false) (hrun : Console.run commands (parse line) s = (.ret output, t)) (echo : String) :
    (Reply.answer line (echo ++ (if output.isEmpty then "" else output ++ "\r\n") ++ prompt)).Proper commands := by
  unfold Proper
  refine ⟨?_, echo, output, s, ?_, rfl⟩
  · rw [hno]
    exact Bool.false_ne_true
  · rw [hrun]

omit [Serde] in
theorem sleep_leaves (agent : Agent σ) (d : Duration) (s : World σ) :
    ∃ t, LeavesSeen (sleep agent .restarting d) s () t [] :=
  ⟨_, rfl, rfl, by simp [Seen.of]⟩

omit [Serde] in
theorem restart_leaves (agent : Agent σ) (s : World σ) : ∃ t, LeavesSeen (restart agent) s () t [.restarted] :=
  ⟨_, rfl, rfl, by simp [Seen.of]⟩

theorem answerLines_replies (hsend : SendsSucceed agent) (commands : List (Command σ)) (lines : List String) (echo : String)
    (s : World σ) : ∃ replies t,
      LeavesSeen (answerLines agent commands echo lines) s (lines.any isReboot) t (replies.flatMap (Reply.seen commands)) ∧
        Replies commands lines replies := by
  induction lines generalizing echo s with
  | nil =>
    by_cases hecho : echo = ""
    · exact ⟨[], s, hecho ▸ LeavesSeen.pure false s, rfl, fun r hr => absurd hr List.not_mem_nil⟩
    · obtain ⟨t, hsent⟩ := sendConsole_leaves hsend echo hecho s
      refine ⟨[.echo echo], t, ?_, rfl, fun r hr => ?_⟩
      · exact hsent.bind (.pure false t)
      · obtain rfl := List.mem_singleton.mp hr
        exact hecho
  | cons line rest ih =>
    rw [answerLines, List.any_cons]
    cases hreboot : isReboot line with
    | true =>
      rw [isReboot] at hreboot
      obtain ⟨t₁, hsent⟩ := sendConsole_leaves hsend (echo ++ "rebooting\r\n") (by simp) s
      obtain ⟨t₂, hslept⟩ := sleep_leaves agent (.fromMillis 250) t₁
      obtain ⟨t₃, hrestarted⟩ := restart_leaves agent t₂
      rw [if_pos hreboot]
      refine ⟨[.reboot line (echo ++ "rebooting\r\n")], t₃, ?_, ?_, fun r hr => ?_⟩
      · exact hsent.bind (hslept.bind (hrestarted.bind (.pure true t₃)))
      · rw [answered, isReboot, if_pos hreboot]
        rfl
      · obtain rfl := List.mem_singleton.mp hr
        exact ⟨hreboot, echo, rfl⟩
    | false =>
      have hno : ¬ (parse line).any (·.1 == "reboot") = true := by
        rw [isReboot] at hreboot
        rw [hreboot]
        exact Bool.false_ne_true
      obtain ⟨output, t₁, hran⟩ := run_leaves commands line s
      obtain ⟨t₂, hsent⟩ := sendConsole_leaves hsend
        (echo ++ (if output.isEmpty then "" else output ++ "\r\n") ++ prompt) (by simp [prompt]) t₁
      obtain ⟨replies, t₃, hrest, hreplies⟩ := ih "" t₂
      rw [if_neg hno]
      refine ⟨.answer line (echo ++ (if output.isEmpty then "" else output ++ "\r\n") ++ prompt) :: replies, t₃, ?_, ?_,
        fun r hr => ?_⟩
      · rw [List.flatMap_cons, Reply.seen, List.append_assoc]
        refine hran.bind ?_
        refine hsent.bind ?_
        exact hrest
      · rw [List.filterMap_cons, answered, isReboot, if_neg hno]
        exact congrArg _ hreplies.lines
      · rcases List.mem_cons.mp hr with rfl | hr
        · exact Reply.proper_answer hreboot hran.ret echo
        · exact hreplies.proper r hr

/-! ### Frame after frame -/

variable [Sha256]

/-- What the session loop does with a frame that was received. -/
def hearFrame (agent : Agent σ) (a : Session) (frame : Frame) : Run σ (Turn Session (Option Stopped)) := do
  match ← attempt (Link.handle agent frame) with
  | .ok action => perform agent a action
  | .error _ => pure (.done none)

/-- And with several, until it ends. -/
def hearFrames (agent : Agent σ) : Session → List Frame → Run σ (Turn Session (Option Stopped))
  | a, [] => pure (.next a)
  | a, frame :: rest => do
    match ← hearFrame agent a frame with
    | .next a => hearFrames agent a rest
    | .done stopped => pure (.done stopped)

theorem listen_hears (a : Session) : listen agent a = (do
    match ← attempt (recvFrame agent) with
    | .error _ => pure (.done none)
    | .ok none => pure (.next a)
    | .ok (some frame) => hearFrame agent a frame) := rfl

/-- A `dn` frame of the terminal's channel. -/
def Types (frame : Frame) (data : String) : Prop :=
  ∃ m, Message.decodeFrame frame = .ok m ∧ m.topic = consoleTopic ∧ m.event = event.down ∧
    (m.payload.get "data").bind Value.asStr = some data

/-- The lines that typing completes, from where the reader is. -/
def linesOf (r : LineReader) (datas : List String) : List String := (r.feed (String.join datas)).1.2

omit [Serde] [Sha256] in
theorem linesOf_cons (r : LineReader) (data : String) (rest : List String) :
    linesOf r (data :: rest) = (r.feed data).1.2 ++ linesOf (r.feed data).2 rest := by
  rw [linesOf, linesOf, LineReader.feed_fst, LineReader.feed_fst, LineReader.feed_fst, LineReader.feed_snd,
    String.join_cons,
    String.toList_append, answers_append, LineReader.gather_append, List.map_append]

omit [Sha256] in
theorem handle_types {frame : Frame} {data : String} (h : Types frame data) (s : World σ) :
    Link.handle agent frame s = (.ret (.console data), s) := by
  obtain ⟨m, hdecode, htopic, hevent, hdata⟩ := h
  have hext : ¬ consoleTopic = extensionsTopic := by decide
  have hreply : ¬ event.down = event.reply := by decide
  simp only [Link.handle, hdecode, Link.handleMessage, htopic, if_neg hext, if_true, Link.handleConsoleFrame, hevent,
    if_neg hreply, hdata]
  rfl

/-- One frame is answered, and the reader goes on from where it leaves it. -/
theorem hearFrame_replies (hsend : SendsSucceed agent) {commands : List (Command σ)}
    (hconsole : agent.console = some commands)
    {frame : Frame} {data : String} (h : Types frame data) (a : Session) (s : World σ) :
    ∃ replies t, hearFrame agent a frame s =
        (.ret (if (s.own.reader.feed data).1.2.any isReboot then .done (some .rebooting) else .next a), t) ∧
      t.own.reader = (s.own.reader.feed data).2 ∧
      seen t.trace = seen s.trace ++ replies.flatMap (Reply.seen commands) ∧
      Replies commands (s.own.reader.feed data).1.2 replies := by
  let s₁ : World σ := { s with own := { s.own with reader := (s.own.reader.feed data).2 } }
  obtain ⟨replies, t, hleaves, hreplies⟩ :=
    answerLines_replies hsend commands (s.own.reader.feed data).1.2 (s.own.reader.feed data).1.1 s₁
  refine ⟨replies, t, ?_, hleaves.reader, hleaves.seen, hreplies⟩
  have hhandled : attempt (Link.handle agent frame) s = (.ret (.ok (.console data)), s) := by
    rw [attempt, handle_types h]
  have hanswered : answerConsole agent data s = (.ret ((s.own.reader.feed data).1.2.any isReboot), t) := by
    rw [answerConsole, hconsole]
    exact (bind_ret rfl).trans hleaves.ret
  rw [hearFrame, bind_ret hhandled]
  refine (bind_ret hanswered).trans ?_
  cases (s.own.reader.feed data).1.2.any isReboot <;> rfl

theorem hearFrames_replies (hsend : SendsSucceed agent) {commands : List (Command σ)}
    (hconsole : agent.console = some commands)
    {frames : List Frame} {datas : List String} (h : List.Forall₂ Types frames datas) (a : Session) (s : World σ) :
    ∃ replies t, hearFrames agent a frames s =
        (.ret (if (linesOf s.own.reader datas).any isReboot then .done (some .rebooting) else .next a), t) ∧
      seen t.trace = seen s.trace ++ replies.flatMap (Reply.seen commands) ∧
      Replies commands (linesOf s.own.reader datas) replies := by
  induction h generalizing s with
  | nil =>
    refine ⟨[], s, rfl, (List.append_nil _).symm, ?_, fun r hr => absurd hr List.not_mem_nil⟩
    rfl
  | @cons frame data frames datas hframe _ ih =>
    obtain ⟨replies₁, t₁, hheard₁, hreader, hseen₁, hreplies₁⟩ := hearFrame_replies hsend hconsole hframe a s
    rw [linesOf_cons]
    cases hreboot : (s.own.reader.feed data).1.2.any isReboot with
    | true =>
      rw [hreboot] at hheard₁
      refine ⟨replies₁, t₁, ?_, hseen₁, ?_, hreplies₁.proper⟩
      · rw [List.any_append, hreboot]
        exact bind_ret hheard₁
      · rw [answered_append, if_pos hreboot, hreplies₁.lines]
    | false =>
      rw [hreboot] at hheard₁
      obtain ⟨replies₂, t₂, hheard₂, hseen₂, hreplies₂⟩ := ih t₁
      rw [hreader] at hheard₂ hreplies₂
      refine ⟨replies₁ ++ replies₂, t₂, ?_, ?_, ?_, fun r hr => ?_⟩
      · rw [List.any_append, hreboot]
        exact (bind_ret hheard₁).trans hheard₂
      · rw [hseen₂, hseen₁, List.flatMap_append, List.append_assoc]
      · rw [answered_append, hreboot, List.filterMap_append, hreplies₁.lines, hreplies₂.lines]
        rfl
      · rcases List.mem_append.mp hr with hr | hr
        · exact hreplies₁.proper r hr
        · exact hreplies₂.proper r hr

/-! ### What the replies come to -/

omit [Serde] [Sha256] in
theorem answered_filter (lines : List String) :
    (answered lines).filter (fun line => !isReboot line) = lines.takeWhile fun line => !isReboot line := by
  induction lines with
  | nil => rfl
  | cons line rest ih =>
    rw [answered]
    cases hreboot : isReboot line with
    | true => simp [hreboot]
    | false => simp [hreboot, ih]

omit [Serde] [Sha256] in
theorem answered_count (lines : List String) :
    (answered lines).countP isReboot = if lines.any isReboot then 1 else 0 := by
  induction lines with
  | nil => rfl
  | cons line rest ih =>
    rw [answered]
    cases hreboot : isReboot line with
    | true => simp [hreboot]
    | false => simpa [hreboot] using ih

omit [Sha256] in
/-- The command of a reply is that of its line, which is run unless it is a reboot. -/
theorem Reply.Proper.commands {commands : List (Command σ)} {r : Reply} (h : r.Proper commands) :
    (r.seen commands).filterMap Seen.command =
      (r.line.toList.filter fun line => !isReboot line).filterMap (commandOf commands) := by
  cases r with
  | echo text => rfl
  | answer line text =>
    have hno : isReboot line = false := by simpa using h.1
    cases hcommand : commandOf commands line <;> simp [Reply.seen, Reply.line, Seen.command, hno, hcommand]
  | reboot line text =>
    have hyes : isReboot line = true := h.1
    simp [Reply.seen, Reply.line, Seen.command, hyes]

omit [Sha256] in
theorem Reply.Proper.restarts {commands : List (Command σ)} {r : Reply} (h : r.Proper commands) :
    (r.seen commands).count .restarted = r.line.toList.countP isReboot := by
  cases r with
  | echo text => simp [Reply.seen, Reply.line]
  | answer line text =>
    have hno : isReboot line = false := by simpa using h.1
    cases hcommand : commandOf commands line <;> simp [Reply.seen, Reply.line, hno, hcommand]
  | reboot line text =>
    have hyes : isReboot line = true := h.1
    simp [Reply.seen, Reply.line, hyes]

omit [Sha256] in
theorem Replies.commands {commands : List (Command σ)} {lines : List String} {replies : List Reply}
    (h : Replies commands lines replies) :
    (replies.flatMap (Reply.seen commands)).filterMap Seen.command =
      (lines.takeWhile fun line => !isReboot line).filterMap (commandOf commands) := by
  rw [← answered_filter, ← h.lines, List.filterMap_eq_flatMap_toList Reply.line, List.filterMap_flatMap,
    List.filter_flatMap, List.filterMap_flatMap]
  exact List.flatMap_congr fun r hr => (h.proper r hr).commands

omit [Sha256] in
theorem Replies.restarts {commands : List (Command σ)} {lines : List String} {replies : List Reply}
    (h : Replies commands lines replies) :
    (replies.flatMap (Reply.seen commands)).count .restarted = if lines.any isReboot then 1 else 0 := by
  rw [← answered_count, ← h.lines, List.filterMap_eq_flatMap_toList Reply.line, List.count_flatMap, List.countP_flatMap]
  exact congrArg List.sum (List.map_congr_left fun r hr => (h.proper r hr).restarts)

/-- What comes of lines, in a record before and after: their commands are run in turn, each line is answered by one message,
and the device restarts once if one of them says so, after which nothing is done. -/
structure Dialog (commands : List (Command σ)) (lines : List String) (before after : List Event) : Prop where
  replies : ∃ replies, seen after = seen before ++ replies.flatMap (Reply.seen commands) ∧ Replies commands lines replies
  commands : (seen after).filterMap Seen.command =
    (seen before).filterMap Seen.command ++
      (lines.takeWhile fun line => !isReboot line).filterMap (commandOf commands)
  restarts : (seen after).count .restarted = (seen before).count .restarted + if lines.any isReboot then 1 else 0

/-- However a text is cut into frames, what comes of it is what comes of its lines. -/
theorem frames_dialog (hsend : SendsSucceed agent) {commands : List (Command σ)} (hconsole : agent.console = some commands)
    {frames : List Frame} {datas : List String} (h : List.Forall₂ Types frames datas) (a : Session) (s : World σ) :
    ∃ t, hearFrames agent a frames s =
        (.ret (if (linesOf s.own.reader datas).any isReboot then .done (some .rebooting) else .next a), t) ∧
      Dialog commands (linesOf s.own.reader datas) s.trace t.trace := by
  obtain ⟨replies, t, hheard, hseen, hreplies⟩ := hearFrames_replies hsend hconsole h a s
  refine ⟨t, hheard, ⟨replies, hseen, hreplies⟩, ?_, ?_⟩
  · rw [hseen, List.filterMap_append, hreplies.commands]
  · rw [hseen, List.count_append, hreplies.restarts]

end

/-! ### On a bench -/

section

def dnPush (name data : String) : Script :=
  ⟨name, ⟨some "3", none, consoleTopic, event.down, .obj [("data", .string data)]⟩⟩

@[reducible] def dialogSerde : Serde := benchSerde [dnPush "first half" "pi", dnPush "second half" "ng\r"]

attribute [local instance] dialogSerde sha256OfByte

/-- A device with a `ping`, whose socket takes everything. -/
def pingAgent : Agent Bench :=
  { benchAgent .none with
    platform := { Bench.platform with send := fun _ b => (.ok (), b) }
    console := some [⟨"ping", "say pong", fun _ b => ((["pong"], .ok ()), b)⟩] }

def pingSession : Session := ⟨true, false, false, true, 0, 0, some 0, false⟩

def pingWorld : World Bench := ⟨⟨[], 0, [], 0, false, []⟩, benchDevice .none none, [], 0⟩

/-- `ping` in two frames. -/
theorem ping_dialog : ∃ commands t, pingAgent.console = some commands ∧
    hearFrames pingAgent pingSession [.text "first half", .text "second half"] pingWorld = (.ret (.next pingSession), t) ∧
    Dialog commands ["ping"] [] t.trace := by
  have hframes : List.Forall₂ Types [.text "first half", .text "second half"] ["pi", "ng\r"] :=
    .cons ⟨_, rfl, rfl, rfl, rfl⟩ (.cons ⟨_, rfl, rfl, rfl, rfl⟩ .nil)
  have hlines : linesOf pingWorld.own.reader ["pi", "ng\r"] = ["ping"] := by decide
  have hsend : SendsSucceed pingAgent := fun _ _ => rfl
  obtain ⟨t, hheard, hdialog⟩ := frames_dialog hsend rfl hframes pingSession pingWorld
  rw [hlines] at hheard hdialog
  exact ⟨_, t, rfl, hheard, hdialog⟩

end

end NervesHub
