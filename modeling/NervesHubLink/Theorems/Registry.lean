import NervesHubLink.Bench
import NervesHubLink.Theorems.Footprint
import Mathlib.Data.List.Nodup
import Mathlib.Tactic.Common

/-! Which command a typed name runs. -/

namespace NervesHub
open Act Prog

section
variable {σ : Type}

/-! ### Registering -/

/-- The commands of a terminal after one more is registered. -/
def register (commands : List (Command σ)) (c : Command σ) : List (Command σ) :=
  commands.filter (·.name != c.name) ++ [c]

/-- Each name once. -/
def Distinct (commands : List (Command σ)) : Prop := (commands.map Command.name).Nodup

theorem register_distinct {commands : List (Command σ)} (h : Distinct commands) (c : Command σ) :
    Distinct (register commands c) := by
  unfold Distinct at h ⊢
  rw [register, List.map_append, List.nodup_append]
  refine ⟨h.sublist (List.filter_sublist.map _), List.nodup_singleton _, ?_⟩
  intro name hname other hother
  obtain ⟨d, hd, rfl⟩ := List.mem_map.mp hname
  obtain ⟨-, hne⟩ := List.mem_filter.mp hd
  obtain rfl := List.mem_singleton.mp hother
  exact bne_iff_ne.mp hne

/-- What is registered under a name: the last one that was. -/
theorem filter_register (commands : List (Command σ)) (c : Command σ) (name : String) :
    (register commands c).filter (·.name == name) =
      if c.name = name then [c] else commands.filter (·.name == name) := by
  rw [register, List.filter_append, List.filter_filter]
  split_ifs with hname
  · have hnone : commands.filter (fun d => d.name == name && d.name != c.name) = [] := by
      rw [List.filter_eq_nil_iff, ← hname]
      intro d _
      simp
    rw [hnone]
    simp [hname]
  · have hsame : commands.filter (fun d => d.name == name && d.name != c.name) = commands.filter (·.name == name) := by
      refine List.filter_congr fun d _ => ?_
      by_cases hd : d.name = name
      · simp [hd, Ne.symm hname]
      · simp [hd]
    rw [hsame]
    simp [hname]

theorem foldl_register_distinct {commands : List (Command σ)} (h : Distinct commands) (cs : List (Command σ)) :
    Distinct (cs.foldl register commands) := by
  induction cs generalizing commands with
  | nil => exact h
  | cons c rest ih => exact ih (register_distinct h c)

theorem filter_foldl_other {cs : List (Command σ)} {name : String} (h : ∀ c ∈ cs, c.name ≠ name)
    (commands : List (Command σ)) :
    (cs.foldl register commands).filter (·.name == name) = commands.filter (·.name == name) := by
  induction cs generalizing commands with
  | nil => rfl
  | cons c rest ih =>
    rw [List.foldl_cons, ih fun d hd => h d (List.mem_cons_of_mem _ hd), filter_register,
      if_neg (h c List.mem_cons_self)]

theorem filter_foldl_congr {commands commands' : List (Command σ)} {name : String}
    (h : commands.filter (·.name == name) = commands'.filter (·.name == name)) (cs : List (Command σ)) :
    (cs.foldl register commands).filter (·.name == name) = (cs.foldl register commands').filter (·.name == name) := by
  induction cs generalizing commands commands' with
  | nil => exact h
  | cons c rest ih =>
    refine ih ?_
    rw [filter_register, filter_register, h]

/-! ### The terminal of an agent -/

theorem Agent.console_foldl_command {agent : Agent σ} {commands : List (Command σ)} (h : agent.console = some commands)
    (cs : List (Command σ)) : (cs.foldl Agent.command agent).console = some (cs.foldl register commands) := by
  induction cs generalizing agent commands with
  | nil => exact h
  | cons c rest ih =>
    refine ih ?_
    rw [Agent.command, h]
    rfl

def Builtins.commands (b : Builtins σ) : List (Command σ) :=
  ⟨"uptime", "time since boot", b.uptime⟩ :: ((b.device.map DeviceCommands.commands).getD [] ++
    [⟨"info", "firmware and device identity", b.info⟩])

theorem Agent.console_withConsole {agent : Agent σ} (h : agent.console = none) (b : Builtins σ) :
    (agent.withConsole b).console = some (b.commands.foldl register []) := by
  obtain ⟨uptime, device, info⟩ := b
  have hbase : ({ agent with console := some (agent.console.getD []) } : Agent σ).console = some [] := by
    rw [h]
    rfl
  have hall := Agent.console_foldl_command hbase (Builtins.commands ⟨uptime, device, info⟩)
  rw [← hall]
  cases device <;> rfl

/-- The agent with a terminal and then these commands registered. -/
def Agent.withCommands (agent : Agent σ) (b : Builtins σ) (cs : List (Command σ)) : Agent σ :=
  cs.foldl Agent.command (agent.withConsole b)

def Agent.commands (agent : Agent σ) : List (Command σ) := agent.console.getD []

theorem Agent.console_withCommands {agent : Agent σ} (h : agent.console = none) (b : Builtins σ) (cs : List (Command σ)) :
    (agent.withCommands b cs).console = some (cs.foldl register (b.commands.foldl register [])) :=
  Agent.console_foldl_command (Agent.console_withConsole h b) cs

/-! ### Running -/

variable [Serde]

/-- Of all that was registered, `c` alone is what its name runs: in the registry, which has each name once and what it had
under the others; and for the line, whose words after the name are `args`. -/
structure RunsLast (agent : Agent σ) (b : Builtins σ) (earlier later : List (Command σ)) (c : Command σ) (line : String)
    (args : List String) (s : World σ) : Prop where
  distinct : Distinct (agent.withCommands b (earlier ++ c :: later)).commands
  only : (agent.withCommands b (earlier ++ c :: later)).commands.filter (·.name == c.name) = [c]
  others : ∀ name, name ≠ c.name →
    (agent.withCommands b (earlier ++ c :: later)).commands.filter (·.name == name) =
      (agent.withCommands b (earlier ++ later)).commands.filter (·.name == name)
  /-- The closure is called once, and its output goes out. -/
  runs : ∀ reply rest,
    answerLines (agent.withCommands b (earlier ++ c :: later))
        (agent.withCommands b (earlier ++ c :: later)).commands reply (line :: rest) s = (do
      let (written, result) ← call (c.run args) fun _ => [.ran c.name args]
      let output := commandOutput c.name written result
      Link.sendConsole (agent.withCommands b (earlier ++ c :: later))
        (reply ++ (if output.isEmpty then "" else output ++ "\r\n") ++ prompt)
      answerLines (agent.withCommands b (earlier ++ c :: later))
        (agent.withCommands b (earlier ++ c :: later)).commands "" rest : Run σ Bool) s

omit [Serde] in
theorem registered_distinct {agent : Agent σ} (h : agent.console = none) (b : Builtins σ) (cs : List (Command σ)) :
    Distinct (agent.withCommands b cs).commands := by
  have hnone : Distinct ([] : List (Command σ)) := List.nodup_nil
  rw [Agent.commands, Agent.console_withCommands h]
  exact foldl_register_distinct (foldl_register_distinct hnone _) _

omit [Serde] in
theorem registered_only {agent : Agent σ} (h : agent.console = none) (b : Builtins σ) (earlier : List (Command σ))
    {later : List (Command σ)} {c : Command σ} (hlast : ∀ d ∈ later, d.name ≠ c.name) :
    (agent.withCommands b (earlier ++ c :: later)).commands.filter (·.name == c.name) = [c] := by
  rw [Agent.commands, Agent.console_withCommands h, Option.getD_some, List.foldl_append, List.foldl_cons,
    filter_foldl_other hlast, filter_register, if_pos rfl]

omit [Serde] in
theorem registered_others {agent : Agent σ} (h : agent.console = none) (b : Builtins σ) (earlier later : List (Command σ))
    {c : Command σ} {name : String} (hname : name ≠ c.name) :
    (agent.withCommands b (earlier ++ c :: later)).commands.filter (·.name == name) =
      (agent.withCommands b (earlier ++ later)).commands.filter (·.name == name) := by
  rw [Agent.commands, Agent.commands, Agent.console_withCommands h, Agent.console_withCommands h, Option.getD_some,
    Option.getD_some, List.foldl_append, List.foldl_append, List.foldl_cons]
  refine filter_foldl_congr ?_ later
  rw [filter_register, if_neg hname.symm]

/-- The names that the agent answers to before it looks into the registry. -/
def ownNames : List String := ["reboot", "log", "help"]

theorem answerLines_registered (agent : Agent σ) {commands : List (Command σ)} {c : Command σ}
    (honly : commands.filter (·.name == c.name) = [c]) (hown : c.name ∉ ownNames) {line : String} {args : List String}
    (hline : parse line = some (c.name, args)) (reply : String) (rest : List String) :
    answerLines agent commands reply (line :: rest) = (do
      let (written, result) ← call (c.run args) fun _ => [.ran c.name args]
      let output := commandOutput c.name written result
      Link.sendConsole agent (reply ++ (if output.isEmpty then "" else output ++ "\r\n") ++ prompt)
      answerLines agent commands "" rest) := by
  have hfind : commands.find? (·.name == c.name) = some c := by
    rw [← List.head?_filter, honly]
    rfl
  simp only [ownNames, List.mem_cons, List.not_mem_nil, or_false, not_or] at hown
  obtain ⟨hreboot, hlog, hhelp⟩ := hown
  have hno : ¬ (parse line).any (·.1 == "reboot") = true := by simp [hline, hreboot]
  rw [answerLines, if_neg hno, hline, Console.run, if_neg hlog, if_neg hhelp, hfind]
  exact bind_assoc _ _ _

/-! ### The agent's own names -/

def closuresRun (t : List Event) : Nat := t.countP fun e => e.kind = .ran

def SameRuns (s t : World σ) : Prop := closuresRun t.trace = closuresRun s.trace

omit [Serde] in
theorem admits_sameRuns : Admits (SameRuns (σ := σ)) (· ≠ .ran) where
  steps := ⟨fun _ => rfl, fun hst htu => htu.trans hst⟩
  gas _ _ := rfl
  calls s env es hes := by
    have hnone : closuresRun es = 0 := List.countP_eq_zero.mpr fun e he => by simpa using hes e he
    have hsum : closuresRun (es ++ s.trace) = closuresRun es + closuresRun s.trace := List.countP_append
    show closuresRun (es ++ s.trace) = closuresRun s.trace
    rw [hsum, hnone, Nat.zero_add]
  aside _ _ _ := rfl
  reader _ _ _ := rfl

omit [Serde] in
theorem hosts_sameRuns : Hosts (SameRuns (σ := σ)) (· ≠ .ran) :=
  { admits_sameRuns with level := fun _ _ => rfl }

/-- No closure is run for a name that the agent keeps to itself. -/
theorem answerLines_own (agent : Agent σ) (commands : List (Command σ)) {name line : String} {args : List String}
    (hown : name ∈ ownNames) (hline : parse line = some (name, args)) (reply : String) (s : World σ) :
    closuresRun (answerLines agent commands reply [line] s).2.trace = closuresRun s.trace := by
  have h : Hosts (SameRuns (σ := σ)) (· ≠ .ran) := hosts_sameRuns
  have hsend : ∀ text, Keeps SameRuns (Link.sendConsole agent text) := h.sendConsole (by decide)
  have hlast : Keeps SameRuns (answerLines agent commands "" []) :=
    Keeps.bind h.steps (hsend _) fun _ => Keeps.pure h.steps _
  rw [answerLines, hline]
  rcases List.mem_cons.mp hown with rfl | hown
  · rw [if_pos (by simp)]
    refine Keeps.bind h.steps (hsend _) (fun _ => ?_) s
    refine Keeps.bind h.steps (h.sleep (by decide) _) fun _ => ?_
    exact Keeps.bind h.steps (h.restart (by decide)) fun _ => Keeps.pure h.steps _
  rcases List.mem_cons.mp hown with rfl | hown
  · rw [if_neg (by simp), Console.run, if_pos rfl]
    exact Keeps.bind h.steps (h.logCommand args) (fun _ => Keeps.bind h.steps (hsend _) fun _ => hlast) s
  · obtain rfl := List.mem_singleton.mp hown
    rw [if_neg (by simp), Console.run, if_neg (by decide), if_pos rfl]
    exact Keeps.bind h.steps (Keeps.pure h.steps _) (fun _ => Keeps.bind h.steps (hsend _) fun _ => hlast) s

/-- One is, where it is the closure's turn. -/
theorem closuresRun_call (agent : Agent σ) (commands : List (Command σ)) (c : Command σ) (args : List String)
    (text : List String × Except Error Unit → String) (s : World σ) :
    closuresRun ((call (c.run args) (fun _ => [.ran c.name args]) >>= fun r =>
      Link.sendConsole agent (text r) >>= fun _ => answerLines agent commands "" []) s :
        Outcome Error Bool × World σ).2.trace =
      closuresRun s.trace + 1 := by
  have h : Hosts (SameRuns (σ := σ)) (· ≠ .ran) := hosts_sameRuns
  have hsend : ∀ text, Keeps SameRuns (Link.sendConsole agent text) := h.sendConsole (by decide)
  have hrest : ∀ r, Keeps SameRuns
      (Link.sendConsole agent (text r) >>= fun _ => answerLines agent commands "" []) := fun r =>
    Keeps.bind h.steps (hsend _) fun _ => Keeps.bind h.steps (hsend _) fun _ => Keeps.pure h.steps _
  rw [bind_ret (call_apply _ _ s)]
  refine (hrest _ _).trans ?_
  exact List.countP_cons_of_pos (decide_eq_true rfl)

theorem not_runsLast_own {agent : Agent σ} {b : Builtins σ} {earlier later : List (Command σ)} {c : Command σ}
    {line : String}
    {args : List String} (hline : parse line = some (c.name, args)) (hown : c.name ∈ ownNames) (s : World σ) :
    ¬ RunsLast agent b earlier later c line args s := by
  intro h
  have hnone := answerLines_own (agent.withCommands b (earlier ++ c :: later))
    (agent.withCommands b (earlier ++ c :: later)).commands hown hline "" s
  rw [h.runs "" []] at hnone
  have hone := closuresRun_call (agent.withCommands b (earlier ++ c :: later))
    (agent.withCommands b (earlier ++ c :: later)).commands c args
      (fun r => "" ++ (if (commandOutput c.name r.1 r.2).isEmpty
      then "" else commandOutput c.name r.1 r.2 ++ "\r\n") ++ prompt) s
  exact absurd (hnone.symm.trans hone) (by omega)

/-- A registration is what its name runs exactly if the name is none of the agent's own. -/
theorem runsLast_iff {agent : Agent σ} (hnew : agent.console = none) (b : Builtins σ) (earlier : List (Command σ))
    {later : List (Command σ)} {c : Command σ} (hlast : ∀ d ∈ later, d.name ≠ c.name) {line : String} {args : List String}
    (hline : parse line = some (c.name, args)) (s : World σ) :
    RunsLast agent b earlier later c line args s ↔ c.name ∉ ["reboot", "log", "help"] := by
  constructor
  · exact fun h hown => not_runsLast_own hline hown s h
  · intro hown
    have honly := registered_only hnew b earlier hlast
    refine ⟨registered_distinct hnew b _, honly, fun name hname => registered_others hnew b earlier later hname, ?_⟩
    intro reply rest
    rw [answerLines_registered _ honly hown hline]

end

/-! ### On a bench -/

section

def quietBuiltins : Builtins Bench := ⟨fun _ b => (([], .ok ()), b), none, fun _ b => (([], .ok ()), b)⟩

def benchCommand (name : String) : Command Bench := ⟨name, "says so", fun _ b => ((["so"], .ok ()), b)⟩

def benchWorld : World Bench := ⟨⟨[], 9, [], 0, false, []⟩, benchDevice .none none, [], 0⟩

@[reducible] def registrySerde : Serde := benchSerde []

attribute [local instance] registrySerde

/-- A built-in that is replaced. -/
theorem uptime_replaced : RunsLast (benchAgent .none) quietBuiltins [] [] (benchCommand "uptime")
    "uptime now" ["now"] benchWorld :=
  (runsLast_iff rfl quietBuiltins [] (fun _ h => absurd h List.not_mem_nil) (by decide) benchWorld).mpr (by decide)

/-- One that is not: the device restarts, and what was registered is not run. -/
theorem reboot_not_replaced : ¬ RunsLast (benchAgent .none) quietBuiltins [] [] (benchCommand "reboot")
    "reboot" [] benchWorld := not_runsLast_own (by decide) (by decide) benchWorld

end

end NervesHub
