import NervesHubLink.Sharing

/-! The log queue keeps its bounds and its order, and accounts for every line. -/

namespace NervesHub
open Machine Trace

section
variable {t : List QueueEvent} {e : QueueEvent}

@[simp] theorem acceptedLines_cons : acceptedLines (e :: t) = acceptedLines t ++ e.accepts := by simp [acceptedLines]

@[simp] theorem takenLines_cons : takenLines (e :: t) = takenLines t ++ e.takes := by simp [takenLines]

@[simp] theorem offered_cons : offered (e :: t) = e.offers + offered t := rfl

@[simp] theorem reported_cons : reported (e :: t) = e.notes + reported t := rfl

end

namespace LogBuffer
variable {b : LogBuffer}

/-! ### One buffer -/

/-- What holds of a buffer at any time. -/
structure Sound (b : LogBuffer) : Prop where
  bytes : b.backlog.bytes = (b.backlog.lines.map heapCost).sum
  within : b.backlog.bytes ≤ b.maxBytes
  count : b.backlog.lines.length ≤ b.capacity

theorem hasRoom_cases (b : LogBuffer) :
    b.hasRoom = (true, b) ∨ b.hasRoom = (false, { b with dropped := b.dropped + 1 }) := by
  unfold hasRoom
  split
  · exact Or.inl rfl
  · exact Or.inr rfl

theorem push_cases (h : b.Sound) (line : LogLine) :
    (∃ b', b.push line = (true, b') ∧ b'.Sound ∧ b'.backlog.lines = b.backlog.lines ++ [line] ∧
      (b'.capacity, b'.maxBytes, b'.dropped) = (b.capacity, b.maxBytes, b.dropped)) ∨
    b.push line = (false, { b with dropped := b.dropped + 1 }) := by
  unfold push
  split
  · exact Or.inr rfl
  · rename_i hroom
    simp only [Bool.or_eq_true, decide_eq_true_eq, not_or, Nat.not_le, Nat.not_lt] at hroom
    refine Or.inl ⟨_, rfl, ⟨?_, hroom.2, ?_⟩, rfl, rfl⟩
    · simp [h.bytes]
    · simp only [List.length_append, List.length_singleton]
      omega

/-- A pop takes the oldest line, or makes a note, with nothing held. -/
theorem pop_cases (h : b.Sound) :
    (∃ line rest b', b.backlog.lines = line :: rest ∧ b.pop = (.line line, b') ∧ b'.Sound ∧ b'.backlog.lines = rest ∧
      (b'.capacity, b'.maxBytes, b'.dropped) = (b.capacity, b.maxBytes, b.dropped)) ∨
    (b.backlog.lines = [] ∧ b.dropped = 0 ∧ b.pop = (.nothing, b)) ∨
    (b.backlog.lines = [] ∧ b.dropped ≠ 0 ∧ b.pop = (.note b.dropped.toNat, { b with dropped := 0 })) := by
  have hbytes := h.bytes
  have hcount := h.count
  unfold pop
  cases hlines : b.backlog.lines with
  | nil =>
    by_cases hdropped : b.dropped = 0
    · exact Or.inr (Or.inl ⟨rfl, hdropped, if_pos hdropped⟩)
    · exact Or.inr (Or.inr ⟨rfl, hdropped, if_neg hdropped⟩)
  | cons line rest =>
    rw [hlines, List.map_cons, List.sum_cons] at hbytes
    rw [hlines, List.length_cons] at hcount
    refine Or.inl ⟨line, rest, _, rfl, rfl, ⟨?_, ?_, ?_⟩, rfl, rfl⟩
    · show b.backlog.bytes - heapCost line = (rest.map heapCost).sum
      omega
    · exact (Nat.sub_le _ _).trans h.within
    · show rest.length ≤ b.capacity
      omega

/-- What filling a batch does to the lines and to their count of bytes: lines move to the batch from the front,
    as long as they fit. -/
theorem fill_spec (maxLines maxBytes : Nat) (micros : Option Nat) :
    ∀ (lines : List LogLine) (batch : Batch) (bytes held : Nat),
    batch.lines.length = batch.raw.length → batch.raw.length ≤ maxLines →
    ∃ taken rest full, fill maxLines maxBytes micros lines batch bytes held =
        ((⟨batch.raw ++ taken, batch.lines ++ taken.mapIdx fun i line =>
          stamp line (micros.map (atPlace · (batch.raw.length + i)))⟩, full), ⟨rest, held - (taken.map heapCost).sum⟩) ∧
      lines = taken ++ rest ∧ batch.raw.length + taken.length ≤ maxLines ∧
      (taken = [] ∨ batch.raw.length + taken.length ≤ 1 ∨ bytes + (taken.map approximateJsonLen).sum ≤ maxBytes) ∧
      (full = false → rest = [] ∨ batch.raw.length + taken.length = maxLines) ∧
      (full = true → batch.raw.length + taken.length ≠ 0 ∧ batch.raw.length + taken.length < maxLines ∧
        ∃ next left, rest = next :: left ∧ maxBytes < bytes + (taken.map approximateJsonLen).sum + approximateJsonLen next)
  | [], batch, bytes, held, _, hmax => ⟨[], [], false, by simp [fill], rfl, hmax, Or.inl rfl, fun _ => Or.inl rfl, nofun⟩
  | next :: rest, batch, bytes, held, hlen, hmax => by
    unfold fill
    split
    · rename_i hroom
      split
      · rename_i hfull
        simp only [Bool.and_eq_true, Bool.not_eq_true', List.isEmpty_eq_false_iff, decide_eq_true_eq] at hfull
        refine ⟨[], next :: rest, true, by simp, rfl, hmax, Or.inl rfl, nofun, fun _ => ⟨?_, ?_, next, rest, rfl, hfull.2⟩⟩
        · have := List.length_pos_iff.mpr hfull.1
          simp only [List.length_nil]
          omega
        · simpa [← hlen] using hroom
      · rename_i hfits
        simp only [Bool.and_eq_true, Bool.not_eq_true', List.isEmpty_eq_false_iff, decide_eq_true_eq, not_and_or, not_not,
          Nat.not_lt] at hfits
        obtain ⟨taken, left, full, hfill, hlines, hcount, hwithin, hnot, hfull⟩ := fill_spec maxLines maxBytes micros rest
          ⟨batch.raw ++ [next], batch.lines ++ [stamp next (micros.map (atPlace · batch.lines.length))]⟩
          (bytes + approximateJsonLen next) (held - heapCost next) (by simp [hlen])
            (by simpa [← hlen, Nat.succ_le_iff] using hroom)
        simp only [List.length_append, List.length_singleton] at hcount hwithin hnot hfull
        have hcost : bytes + ((next :: taken).map approximateJsonLen).sum =
            bytes + approximateJsonLen next + (taken.map approximateJsonLen).sum := by
          rw [List.map_cons, List.sum_cons, Nat.add_assoc]
        have hlength : batch.raw.length + (next :: taken).length = batch.raw.length + 1 + taken.length := by
          rw [List.length_cons]
          omega
        refine ⟨next :: taken, left, full, ?_, by rw [hlines, List.cons_append], ?_, Or.inr ?_, ?_, ?_⟩
        · rw [hfill]
          simp [hlen, List.mapIdx_cons, Nat.add_assoc, Nat.add_comm 1, Nat.sub_sub]
        · rw [hlength]
          exact hcount
        · rw [hlength, hcost]
          rcases hwithin with rfl | hwithin
          · rcases hfits with hempty | hfits
            · rw [hempty] at hlen
              exact Or.inl (by simp [← hlen])
            · exact Or.inr (by simpa using hfits)
          · exact hwithin
        · rw [hlength]
          exact hnot
        · rw [hlength, hcost]
          exact hfull
    · rename_i hroom
      refine ⟨[], next :: rest, false, by simp, rfl, hmax, Or.inl rfl, fun _ => Or.inr ?_, nofun⟩
      simp only [List.length_nil]
      omega

/-- What draining takes, whatever the count of bytes is. -/
theorem drain_lines (b : LogBuffer) (maxLines maxBytes : Nat) (micros : Option Nat) :
    b.backlog.lines = (b.drain maxLines maxBytes micros).1.1.raw ++ (b.drain maxLines maxBytes micros).2.backlog.lines ∧
      (b.drain maxLines maxBytes micros).2.dropped = b.dropped ∧
      (b.drain maxLines maxBytes micros).1.1.raw.length ≤ maxLines ∧
      (b.drain maxLines maxBytes micros).1.1.lines =
        (b.drain maxLines maxBytes micros).1.1.raw.mapIdx fun i line => stamp line (micros.map (atPlace · i)) := by
  obtain ⟨taken, rest, full, hfill, hlines, hcount, -⟩ :=
    fill_spec maxLines maxBytes micros b.backlog.lines ⟨[], []⟩ 0 b.backlog.bytes rfl (Nat.zero_le _)
  unfold drain
  rw [hfill]
  exact ⟨hlines, rfl, by simpa using hcount, by simp⟩

theorem drain_cases (h : b.Sound) (maxLines maxBytes : Nat) (micros : Option Nat) {r : Batch × Bool} {b' : LogBuffer}
    (hr : b.drain maxLines maxBytes micros = (r, b')) :
    b.backlog.lines = r.1.raw ++ b'.backlog.lines ∧ b'.Sound ∧
      (b'.capacity, b'.maxBytes, b'.dropped) = (b.capacity, b.maxBytes, b.dropped) ∧
      r.1.lines = r.1.raw.mapIdx fun i line => stamp line (micros.map (atPlace · i)) := by
  obtain ⟨hlines, -, -, hstamped⟩ := drain_lines b maxLines maxBytes micros
  rw [hr] at hlines hstamped
  obtain ⟨taken, rest, full, hfill, htaken, -⟩ :=
    fill_spec maxLines maxBytes micros b.backlog.lines ⟨[], []⟩ 0 b.backlog.bytes rfl (Nat.zero_le _)
  have hbytes := h.bytes
  have hwithin := h.within
  have hcount := h.count
  rw [htaken] at hbytes hcount
  simp only [List.map_append, List.sum_append, List.length_append] at hbytes hcount
  unfold drain at hr
  rw [hfill] at hr
  cases hr
  refine ⟨hlines, ⟨?_, ?_, ?_⟩, rfl, hstamped⟩
  · show b.backlog.bytes - (taken.map heapCost).sum = (rest.map heapCost).sum
    omega
  · show b.backlog.bytes - (taken.map heapCost).sum ≤ b.maxBytes
    omega
  · show rest.length ≤ b.capacity
    omega

end LogBuffer

/-! ### Any order of steps -/

/-- What became of the lines that were offered: taken, held, counted as lost, or told of in a note. -/
def accountFor (q : Queue) (t : List QueueEvent) : Nat :=
  (takenLines t).length + q.buffer.backlog.lines.length + q.buffer.dropped.toNat + reported t

/-- The lines that were offered, and what became of them. The count of losses has 32 bits: each time that it comes round,
    2^32 of them are forgotten. -/
structure Accounted (capacity maxBytes : Nat) (q : Queue) (t : List QueueEvent) : Prop where
  bounds : (q.buffer.capacity, q.buffer.maxBytes) = (capacity, maxBytes)
  sound : q.buffer.Sound
  order : acceptedLines t = takenLines t ++ q.buffer.backlog.lines
  counter : Shows q.buffer.dropped (untold t)
  total : ∃ rounds, offered t = accountFor q t + 2 ^ 32 * rounds
  exact : NeverRound QueueEvent.isLoss QueueEvent.isNote 0 t → offered t = accountFor q t

section
variable {capacity maxBytes : Nat} {threshold : Level} {q q' : Queue} {t : List QueueEvent} {e : QueueEvent}

theorem Accounted.start : Accounted capacity maxBytes (Queue.new capacity maxBytes threshold) [] where
  bounds := rfl
  sound := ⟨rfl, Nat.zero_le _, Nat.zero_le _⟩
  order := rfl
  counter := rfl
  total := ⟨0, rfl⟩
  exact _ := rfl

/-- A step that keeps the queue sound: of the lines before and after, and of the counts, it must balance, but for a count
    that comes round. -/
theorem Accounted.next (h : Accounted capacity maxBytes q t)
    (hbounds : (q'.buffer.capacity, q'.buffer.maxBytes) = (q.buffer.capacity, q.buffer.maxBytes)) (hsound : q'.buffer.Sound)
    (horder : q.buffer.backlog.lines ++ e.accepts = e.takes ++ q'.buffer.backlog.lines)
    (hcounter : Shows q'.buffer.dropped (untold (e :: t))) (rounds : Nat)
    (htotal : q.buffer.backlog.lines.length + q.buffer.dropped.toNat + e.offers =
      e.takes.length + q'.buffer.backlog.lines.length + q'.buffer.dropped.toNat + e.notes + 2 ^ 32 * rounds)
    (hexact : untold (e :: t) < 2 ^ 32 → rounds = 0) :
    Accounted capacity maxBytes q' (e :: t) := by
  have hnext : ∀ before, offered t = accountFor q t + 2 ^ 32 * before →
      offered (e :: t) = accountFor q' (e :: t) + 2 ^ 32 * (before + rounds) := by
    intro before hbefore
    rw [accountFor] at hbefore ⊢
    rw [offered_cons, takenLines_cons, reported_cons, List.length_append]
    omega
  refine ⟨hbounds.trans h.bounds, hsound, ?_, hcounter, ?_, fun hnever => ?_⟩
  · rw [acceptedLines_cons, takenLines_cons, h.order, List.append_assoc, horder, List.append_assoc]
  · obtain ⟨before, hbefore⟩ := h.total
    exact ⟨before + rounds, hnext before hbefore⟩
  · obtain ⟨hlt, hnever⟩ := neverRound_cons.mp hnever
    have hnow := hnext 0 (h.exact hnever)
    rw [hexact hlt] at hnow
    exact hnow

/-- A pop, whatever is done with what it took. -/
theorem Accounted.popped (h : Accounted capacity maxBytes q t) (returned : Option LogLine) (taking : List Taking) :
    Accounted capacity maxBytes { q with buffer := q.buffer.pop.2, taking := taking }
      (.popped q.buffer.pop.1 returned :: t) := by
  rcases LogBuffer.pop_cases h.sound with ⟨line, rest, b, hlines, hpop, hb, hrest, hsame⟩ | ⟨hlines, hdropped, hpop⟩ |
    ⟨hlines, hdropped, hpop⟩ <;> rw [hpop]
  · simp only [Prod.mk.injEq] at hsame
    refine h.next (by simp [hsame]) hb ?_ (hsame.2.2 ▸ h.counter) 0 ?_ fun _ => rfl
    · simp [QueueEvent.accepts, QueueEvent.takes, hlines, hrest]
    · simp only [QueueEvent.offers, QueueEvent.takes, QueueEvent.notes, hlines, hrest, hsame.2.2, List.length_cons,
        List.length_nil]
      omega
  · exact h.next rfl h.sound (List.append_nil _) h.counter 0
      (by simp [QueueEvent.offers, QueueEvent.takes, QueueEvent.notes])
      fun _ => rfl
  · refine h.next rfl ⟨h.sound.bytes, h.sound.within, h.sound.count⟩ (List.append_nil _) rfl 0 ?_ fun _ => rfl
    simp [QueueEvent.offers, QueueEvent.takes, QueueEvent.notes]

/-- A line that is counted as lost, and nothing else. -/
theorem Accounted.lost (h : Accounted capacity maxBytes q t) (refusing : Nat) (haccepts : e.accepts = [])
    (htakes : e.takes = []) (hoffers : e.offers = 1) (hnotes : e.notes = 0) (hloss : e.isLoss = true)
    (hnote : e.isNote = false) :
    Accounted capacity maxBytes
      { q with buffer := { q.buffer with dropped := q.buffer.dropped + 1 }, refusing := refusing } (e :: t) := by
  have huntold : untold (e :: t) = untold t + 1 := since_counts hnote hloss
  have horder : q.buffer.backlog.lines ++ e.accepts = e.takes ++ q.buffer.backlog.lines := by
    rw [haccepts, htakes]
    exact List.append_nil _
  have hsound : LogBuffer.Sound { q.buffer with dropped := q.buffer.dropped + 1 } :=
    ⟨h.sound.bytes, h.sound.within, h.sound.count⟩
  have hcounter : Shows (q.buffer.dropped + 1) (untold (e :: t)) := huntold ▸ h.counter.succ
  rcases toNat_succ_cases q.buffer.dropped with hnext | hround
  · refine h.next rfl hsound horder hcounter 0 ?_ fun _ => rfl
    simp only [htakes, hoffers, hnotes, List.length_nil, hnext]
    omega
  · refine h.next rfl hsound horder hcounter 1 ?_ fun hlt => ?_
    · simp only [htakes, hoffers, hnotes, List.length_nil]
      omega
    · have hsucc := h.counter.toNat_succ (huntold ▸ hlt)
      omega

theorem Accounted.step (h : Accounted capacity maxBytes q t) (hs : Queue.Step q e q') :
    Accounted capacity maxBytes q' (e :: t) := by
  cases hs with
  | push line =>
    rcases LogBuffer.push_cases h.sound line with ⟨b, hpush, hb, hlines, hsame⟩ | hpush <;> rw [hpush]
    · simp only [Prod.mk.injEq] at hsame
      refine h.next (by simp [hsame]) hb ?_ (hsame.2.2 ▸ h.counter) 0 ?_ fun _ => rfl
      · simp [QueueEvent.accepts, QueueEvent.takes, hlines]
      · simp only [QueueEvent.offers, QueueEvent.takes, QueueEvent.notes, hlines, hsame.2.2, List.length_append,
          List.length_singleton, List.length_nil]
        omega
    · exact h.lost q.refusing rfl rfl rfl rfl rfl rfl
  | ask =>
    exact h.next rfl h.sound (List.append_nil _) h.counter 0
      (by simp [QueueEvent.offers, QueueEvent.takes, QueueEvent.notes])
      fun _ => rfl
  | count hrefusing => exact h.lost _ rfl rfl rfl rfl rfl rfl
  | pop => exact h.popped _ q.taking
  | popStamped micros => exact h.popped _ q.taking
  | finish ht => exact h.popped _ _
  | fill maxLines maxBytes' micros hdrain =>
    obtain ⟨hlines, hsound, hsame, -⟩ := LogBuffer.drain_cases h.sound _ _ _ hdrain
    simp only [Prod.mk.injEq] at hsame
    refine h.next (by simp [hsame]) hsound ?_ (hsame.2.2 ▸ h.counter) 0 ?_ fun _ => rfl
    · simp [QueueEvent.accepts, QueueEvent.takes, hlines]
    · simp only [QueueEvent.offers, QueueEvent.takes, QueueEvent.notes, hlines, hsame.2.2, List.length_append]
      omega

theorem Accounted.isNote (h : Accounted capacity maxBytes q t) (hs : Queue.Step q e q') (he : e.isNote = true) :
    acceptedLines t = takenLines t := by
  have hpop : ∀ returned, (QueueEvent.popped q.buffer.pop.1 returned).isNote = true → acceptedLines t = takenLines t := by
    intro returned hnote
    rcases LogBuffer.pop_cases h.sound with ⟨line, rest, b, hlines, hpop, -⟩ | ⟨hlines, -, -⟩ | ⟨hlines, -, -⟩
    · rw [hpop] at hnote
      cases hnote
    all_goals rw [h.order, hlines, List.append_nil]
  cases hs with
  | pop => exact hpop _ he
  | popStamped micros => exact hpop _ he
  | finish ht => exact hpop _ he
  | push line => cases he
  | ask => cases he
  | count hrefusing => cases he
  | fill maxLines maxBytes micros hdrain => cases he

theorem Accounted.returns (h : Accounted capacity maxBytes q t) (hs : Queue.Step q e q') : e.Returns := by
  cases hs with
  | pop =>
    refine ⟨none, ?_⟩
    cases q.buffer.pop.1.sent with
    | none => rfl
    | some line =>
      simp only [Option.map_some, stamp]
      split <;> simp_all
  | popStamped micros => exact ⟨micros, rfl⟩
  | finish ht => exact ⟨_, rfl⟩
  | push line => trivial
  | ask => trivial
  | count hrefusing => trivial
  | fill maxLines maxBytes' micros hdrain => exact ⟨micros, (LogBuffer.drain_cases h.sound _ _ _ hdrain).2.2.2⟩

/-- However the steps of the threads come, the queue stays in its bounds, lines come out in the order in which they
    were accepted and each once, every offer is accounted for as long as the count of losses has not come round, and a note
    is made only with nothing held. -/
theorem queue_accounted (h : Reads Queue.Step (Queue.new capacity maxBytes threshold) [] q t) :
    Accounted capacity maxBytes q t ∧ OnlyAfter (·.isNote) (fun older => acceptedLines older = takenLines older) t ∧
      Throughout (fun e _ => e.Returns) t := by
  have hall : ∀ {q t}, Reads Queue.Step (Queue.new capacity maxBytes threshold) [] q t → Accounted capacity maxBytes q t :=
    fun h => h.always Accounted.start fun hI hs => hI.step hs
  refine ⟨hall h, ?_, ?_⟩
  · exact h.throughout throughout_nil fun hr hs he => (hall hr).isNote hs he
  · exact h.throughout throughout_nil fun hr hs => (hall hr).returns hs

/-- A line that is taken by one thread while another is turned away. -/
theorem queue_accounted_interleaved :
    let q := Queue.new 1 (8 * 1024) .info
    let line : LogLine := .new "info" "up"
    let full := (q.buffer.push line).2
    let e := QueueEvent.popped full.pop.1 full.pop.1.sent
    Accounted 1 (8 * 1024) ⟨full.pop.2, 1, []⟩ [e, .asked full.hasRoom.1, .pushed line (q.buffer.push line).1] ∧
      OnlyAfter (·.isNote) (fun older => acceptedLines older = takenLines older)
        [e, .asked full.hasRoom.1, .pushed line (q.buffer.push line).1] ∧
      Throughout (fun e _ => e.Returns) [e, .asked full.hasRoom.1, .pushed line (q.buffer.push line).1] :=
  queue_accounted (.step (.step (.step .start (.push (.new "info" "up"))) .ask) .pop)

/-- So many lines are pushed, and there is room for none. -/
def refusals (n : Nat) : List QueueEvent := List.replicate n (.pushed (.new "info" "up") false)

/-- A queue that has no room for a line, with so many counted as lost. -/
def refusing (n : Nat) : Queue := ⟨⟨⟨[], 0⟩, 0, 8 * 1024, .ofNat n, Level.info.toNat⟩, 0, []⟩

theorem reads_refusals (n : Nat) : Reads Queue.Step (Queue.new 0 (8 * 1024) .info) [] (refusing n) (refusals n) := by
  induction n with
  | zero => exact .start
  | succ n ih =>
    have hstep := ih.step (.push (.new "info" "up"))
    have hpush : (refusing n).buffer.push (.new "info" "up") =
        (false, { (refusing n).buffer with dropped := UInt32.ofNat n + 1 }) := rfl
    rw [hpush] at hstep
    rw [refusals, List.replicate_succ, refusing, UInt32.ofNat_add]
    exact hstep

theorem offered_refusals (n : Nat) : offered (refusals n) = n := by
  induction n with
  | zero => rfl
  | succ n ih =>
    rw [refusals, List.replicate_succ, offered_cons, ← refusals, ih]
    exact Nat.add_comm 1 n

theorem accountFor_refusals (n : Nat) : accountFor (refusing n) (refusals n) = n % 2 ^ 32 := by
  have htaken : takenLines (refusals n) = [] := by
    simp [takenLines, refusals, List.flatMap_eq_nil_iff, QueueEvent.takes]
  have hreported : reported (refusals n) = 0 := by simp [reported, refusals, QueueEvent.notes]
  rw [accountFor, htaken, hreported]
  show 0 + 0 + (UInt32.ofNat n).toNat + 0 = _
  rw [UInt32.toNat_ofNat']
  omega

/-- With the push that brings the count of losses round, none of them is accounted for. -/
theorem queue_count_round : Reads Queue.Step (Queue.new 0 (8 * 1024) .info) [] (refusing (2 ^ 32)) (refusals (2 ^ 32)) ∧
    offered (refusals (2 ^ 32)) ≠ accountFor (refusing (2 ^ 32)) (refusals (2 ^ 32)) := by
  refine ⟨reads_refusals _, ?_⟩
  rw [offered_refusals, accountFor_refusals]
  decide

end

end NervesHub
