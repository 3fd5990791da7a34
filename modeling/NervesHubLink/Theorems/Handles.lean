import NervesHubLink.Transport

/-! What a websocket is made of is given back once, in an order in which nothing is missing that is still needed, by
whichever way a connection ends. -/

namespace NervesHub
open Act Prog Ownership

/-- What an event does with the handles. A transport may use the one under it, and a client what it was set up with. -/
def TransportEvent.dealings : TransportEvent → List (Dealing Handle)
  | .baseInit (some base) => [.make base]
  | .baseInit none => []
  | .wsInit base (some ws) => [.use base, .make ws, .lend base ws]
  | .wsInit base none => [.use base]
  | .wsConfigured ws _ => [.use ws]
  | .clientInit ws (some client) => [.use ws, .make client, .lend ws client]
  | .clientInit ws none => [.use ws]
  | .eventsBoxed events => [.make events]
  | .eventsRegistered client events _ => [.use client, .lend events client]
  | .clientStarted client _ => [.use client]
  | .askedConnected client _ => [.use client]
  | .sent client _ => [.use client]
  | .eventsLocked events => [.use events]
  | .stopped => []
  | .clientDestroyed client => [.release client]
  | .transportDestroyed transport => [.release transport]
  | .eventsFreed events => [.release events]
  | .task client h => [.use client, .use h]

/-- The task of a client that was not destroyed yet gets at what the client was lent. -/
def taskRuns (e : TransportEvent) (x : Heap Handle) : Prop :=
  ∃ client h, e = .task client h ∧ client ∈ x.live ∧ x.Reaches client h

theorem taskRuns_uses (e : TransportEvent) (x : Heap Handle) (h : taskRuns e x) :
    ∀ d ∈ e.dealings, ∃ h ∈ x.live, d = .use h := by
  obtain ⟨client, h, rfl, hlive, hreach⟩ := h
  intro d hd
  rcases List.mem_cons.mp hd with rfl | hd
  · exact ⟨client, hlive, rfl⟩
  · exact ⟨h, hreach.live hlive, List.mem_singleton.mp hd⟩

namespace Partial

def live (p : Partial) : List Handle := p.events.toList ++ p.client.toList ++ p.ws.toList ++ p.base.toList

/-- What may be lent to what. -/
def Lends (p : Partial) (q : Handle × Handle) : Prop :=
  p.base = some q.1 ∧ p.ws = some q.2 ∨ p.ws = some q.1 ∧ p.client = some q.2 ∨ p.events = some q.1 ∧ p.client = some q.2

end Partial

/-- Nothing was misused, and what there is is what `p` has. -/
def Holds {σ : Type} (p : Partial) (s : Rec σ TransportEvent Sockets) : Prop :=
  ∃ x, after TransportEvent.dealings s.trace = some x ∧ x.live = p.live ∧ (∀ q ∈ x.lent, p.Lends q) ∧
    ∀ h ∈ p.live, h < s.own.made

/-- Nothing was misused, whatever there is. -/
def Sane {σ : Type} (s : Rec σ TransportEvent Sockets) : Prop := ∃ x, after TransportEvent.dealings s.trace = some x

section
variable {σ : Type} {p p' : Partial} {s : Rec σ TransportEvent Sockets} {e : TransportEvent} {env : σ}

theorem Holds.sane (h : Holds p s) : Sane s := by
  obtain ⟨x, hx, -⟩ := h
  exact ⟨x, hx⟩

/-- An event that uses what there is. -/
theorem Holds.uses (h : Holds p s) {gas : Nat} (he : ∀ d ∈ e.dealings, ∃ h ∈ p.live, d = .use h) :
    Holds p { s with env := env, trace := e :: s.trace, gas := gas } := by
  obtain ⟨x, hx, hlive, hlent, hmade⟩ := h
  exact ⟨x, (after_cons hx).trans (Heap.run_uses (hlive ▸ he)), hlive, hlent, hmade⟩

theorem Holds.releases (h : Holds p s) {handle : Handle} (he : e.dealings = [.release handle]) (hmem : handle ∈ p.live)
    (hkept : ∀ q, p.Lends q → q.1 ≠ handle) (hlive : p.live.erase handle = p'.live)
    (hlent : ∀ q, p.Lends q → q.2 ≠ handle → p'.Lends q) : Holds p' { s with env := env, trace := e :: s.trace } := by
  obtain ⟨x, hx, hxlive, hxlent, hmade⟩ := h
  obtain ⟨y, hy, hylive, hylent⟩ := Heap.step_release (hxlive ▸ hmem) fun q hq => hkept q (hxlent q hq)
  refine ⟨y, (after_cons hx).trans ?_, ?_, ?_, ?_⟩
  · rw [he, List.foldlM_cons, hy]
    rfl
  · rw [hylive, hxlive, hlive]
  · intro q hq
    rw [hylent] at hq
    obtain ⟨hq, hne⟩ := List.mem_filter.mp hq
    exact hlent q (hxlent q hq) (by simpa using hne)
  · intro h' hh'
    exact hmade h' (List.mem_of_mem_erase (hlive ▸ hh'))

/-- Something is made over a part that there is, which is then lent to it. -/
theorem Holds.makes (h : Holds p s) (under : Option Handle) (hunder : ∀ u ∈ under, u ∈ p.live)
    (he : e.dealings = under.toList.map .use ++ .make s.own.made :: under.toList.map (.lend · s.own.made))
    (hlive : p'.live = s.own.made :: p.live) (hlent : ∀ q, p.Lends q → p'.Lends q)
    (hnew : ∀ u ∈ under, p'.Lends (u, s.own.made))
    {held : Partial} : Holds p' { s with env := env, own := ⟨s.own.made + 1, held⟩, trace := e :: s.trace } := by
  obtain ⟨x, hx, hxlive, hxlent, hmade⟩ := h
  have hfresh : s.own.made ∉ x.live := fun hm => Nat.lt_irrefl _ (hmade _ (hxlive ▸ hm))
  obtain ⟨y, hy, hylive, hylent⟩ := Heap.step_make hfresh
  have hbound : ∀ h ∈ p'.live, h < s.own.made + 1 := by
    rw [hlive]
    exact List.forall_mem_cons.mpr ⟨Nat.lt_succ_self _, fun h hh => (hmade h hh).trans (Nat.lt_succ_self _)⟩
  cases under with
  | none =>
    refine ⟨y, (after_cons hx).trans ?_, by rw [hylive, hxlive, hlive], fun q hq =>
      hlent q (hxlent q (hylent ▸ hq)), hbound⟩
    rw [he]
    simpa using hy
  | some u =>
    have hu : u ∈ x.live := hxlive ▸ hunder u rfl
    obtain ⟨z, hz, hzlive, hzlent⟩ := Heap.step_lend (x := y) (hylive ▸ List.mem_cons_of_mem _ hu)
      (hylive ▸ List.mem_cons_self)
    refine ⟨z, (after_cons hx).trans ?_, by rw [hzlive, hylive, hxlive, hlive], ?_, hbound⟩
    · rw [he]
      simp [Heap.step_use hu, hy, hz]
    · intro q hq
      rw [hzlent, hylent] at hq
      rcases List.mem_cons.mp hq with rfl | hq
      · exact hnew u rfl
      · exact hlent q (hxlent q hq)

theorem Holds.lends (h : Holds p s) {handle holder : Handle} (he : e.dealings = [.use holder, .lend handle holder])
    (hhandle : handle ∈ p.live) (hholder : holder ∈ p.live) (hlends : p.Lends (handle, holder)) :
    Holds p { s with env := env, trace := e :: s.trace } := by
  obtain ⟨x, hx, hxlive, hxlent, hmade⟩ := h
  obtain ⟨y, hy, hylive, hylent⟩ := Heap.step_lend (hxlive ▸ hhandle) (hxlive ▸ hholder)
  refine ⟨y, (after_cons hx).trans ?_, hylive.trans hxlive, ?_, hmade⟩
  · rw [he]
    simp [Heap.step_use (hxlive ▸ hholder), hy]
  · rw [hylent]
    exact List.forall_mem_cons.mpr ⟨hlends, hxlent⟩

theorem Holds.nodup (h : Holds p s) : p.live.Nodup := by
  obtain ⟨x, -, hlive, -⟩ := h
  exact hlive ▸ x.nodup

/-! ### Releasing -/

section
variable {client ws base events : Handle} {client' ws' base' events' : Option Handle}

theorem Holds.clientDestroyed (h : Holds ⟨some client, ws', base', events'⟩ s) :
    Holds ⟨none, ws', base', events'⟩ { s with env := env, trace := .clientDestroyed client :: s.trace } := by
  have hnodup := h.nodup
  simp only [Partial.live, Option.toList_some, List.append_assoc, List.cons_append, List.nil_append] at hnodup
  have hne := (List.nodup_middle.mp hnodup)
  simp only [List.nodup_cons, List.mem_append, Option.mem_toList, not_or] at hne
  obtain ⟨⟨hevents, hws, hbase⟩, -⟩ := hne
  refine h.releases rfl (by simp [Partial.live]) ?_ ?_ ?_
  · rintro q (⟨hq, -⟩ | ⟨hq, -⟩ | ⟨hq, -⟩) rfl
    · exact hbase hq
    · exact hws hq
    · exact hevents hq
  · simp only [Partial.live, Option.toList_some, Option.toList_none, List.append_assoc, List.nil_append, List.cons_append]
    rw [List.erase_append_right _ (by simpa using hevents), List.erase_cons_head]
  · rintro q (hq | ⟨-, hq⟩ | ⟨-, hq⟩) hne
    · exact Or.inl hq
    · exact absurd (Option.some.inj hq).symm hne
    · exact absurd (Option.some.inj hq).symm hne

theorem Holds.wsDestroyed (h : Holds ⟨none, some ws, base', events'⟩ s) :
    Holds ⟨none, none, base', events'⟩ { s with env := env, trace := .transportDestroyed ws :: s.trace } := by
  have hnodup := h.nodup
  simp only [Partial.live, Option.toList_some, Option.toList_none, List.append_assoc, List.cons_append,
    List.nil_append] at hnodup
  have hne := (List.nodup_middle.mp hnodup)
  simp only [List.nodup_cons, List.mem_append, Option.mem_toList, not_or] at hne
  obtain ⟨⟨hevents, hbase⟩, -⟩ := hne
  refine h.releases rfl (by simp [Partial.live]) ?_ ?_ ?_
  · rintro q (⟨hq, -⟩ | ⟨-, hq⟩ | ⟨-, hq⟩) rfl
    · exact hbase hq
    · cases hq
    · cases hq
  · simp only [Partial.live, Option.toList_some, Option.toList_none, List.append_assoc, List.nil_append, List.cons_append]
    rw [List.erase_append_right _ (by simpa using hevents), List.erase_cons_head]
  · rintro q (⟨-, hq⟩ | ⟨-, hq⟩ | ⟨-, hq⟩) hne
    · exact absurd (Option.some.inj hq).symm hne
    · cases hq
    · cases hq

theorem Holds.baseDestroyed (h : Holds ⟨none, none, some base, events'⟩ s) :
    Holds ⟨none, none, none, events'⟩ { s with env := env, trace := .transportDestroyed base :: s.trace } := by
  have hnodup := h.nodup
  simp only [Partial.live, Option.toList_some, Option.toList_none, List.append_nil] at hnodup
  have hevents : events' ≠ some base := by
    rintro rfl
    simp at hnodup
  refine h.releases rfl (by simp [Partial.live]) ?_ ?_ ?_
  · rintro q (⟨-, hq⟩ | ⟨-, hq⟩ | ⟨-, hq⟩) <;> cases hq
  · simp only [Partial.live, Option.toList_some, Option.toList_none, List.append_nil]
    rw [List.erase_append_right _ (by simpa using hevents), List.erase_cons_head, List.append_nil]
  · rintro q (⟨-, hq⟩ | ⟨-, hq⟩ | ⟨-, hq⟩) <;> cases hq

theorem Holds.eventsFreed (h : Holds ⟨none, none, none, some events⟩ s) :
    Holds .default { s with env := env, trace := .eventsFreed events :: s.trace } := by
  refine h.releases rfl (by simp [Partial.live]) ?_ (by simp [Partial.live, Partial.default]) ?_
  · rintro q (⟨-, hq⟩ | ⟨-, hq⟩ | ⟨-, hq⟩) <;> cases hq
  · rintro q (⟨-, hq⟩ | ⟨-, hq⟩ | ⟨-, hq⟩) <;> cases hq

end

/-! ### Making -/

/-- What was made so far is what there is. -/
def Pieces (s : Rec σ TransportEvent Sockets) : Prop := Holds s.own.held s

def Has (p : Partial) (s : Rec σ TransportEvent Sockets) : Prop := Holds p s ∧ s.own.held = p

theorem Has.pieces (h : Has p s) : Pieces s := by
  obtain ⟨h, rfl⟩ := h
  exact h

variable (idf : EspSocket σ)

theorem spec_unlessNull {handle : Option Handle} {f : Handle → SocketProg σ Unit}
    {P Q T C : Rec σ TransportEvent Sockets → Prop}
    (hnone : handle = none → ∀ s, P s → Q s) (hsome : ∀ h, handle = some h → Spec P (f h) (Ends (fun _ => Q) T C)) :
    Spec P (unlessNull handle f) (Ends (fun _ => Q) T C) := by
  cases handle with
  | none => exact Spec.ret (hnone rfl)
  | some h => exact hsome h rfl

theorem spec_cleaningUp {α : Type} {clean : SocketProg σ Unit} {m : SocketProg σ α}
    {P X X' C : Rec σ TransportEvent Sockets → Prop}
    {Q : α → Rec σ TransportEvent Sockets → Prop} (hm : Spec P m (Ends Q X C))
    (hclean : Spec X clean (Ends (fun _ => X') X' C)) :
    Spec P (cleaningUp clean m) (Ends Q X' C) := by
  refine Spec.bind (Spec.attempt (X := X') hm) fun r => ?_
  cases r with
  | ok a => exact Spec.ret fun _ h => h
  | error e => exact Spec.bind hclean fun _ => Spec.fail fun _ h => h

section
variable {T C : Rec σ TransportEvent Sockets → Prop} {client ws base events : Handle}
    {client' ws' base' events' : Option Handle}

theorem destroyClient_spec : Spec (Holds ⟨some client, ws', base', events'⟩) (destroyClient idf client)
    (Ends (fun _ => Holds ⟨none, ws', base', events'⟩) T C) :=
  Spec.bind (spec_call fun _ _ _ h => h.clientDestroyed) fun _ => Spec.ret fun _ h => h

theorem destroyWs_spec : Spec (Holds ⟨none, some ws, base', events'⟩) (destroyTransport idf ws)
    (Ends (fun _ => Holds ⟨none, none, base', events'⟩) T C) :=
  Spec.bind (spec_call fun _ _ _ h => h.wsDestroyed) fun _ => Spec.ret fun _ h => h

theorem destroyBase_spec : Spec (Holds ⟨none, none, some base, events'⟩) (destroyTransport idf base)
    (Ends (fun _ => Holds ⟨none, none, none, events'⟩) T C) :=
  Spec.bind (spec_call fun _ _ _ h => h.baseDestroyed) fun _ => Spec.ret fun _ h => h

theorem freeEvents_spec : Spec (Holds ⟨none, none, none, some events⟩) (freeEvents (σ := σ) events)
    (Ends (fun _ => Holds .default) T C) := spec_call fun _ _ _ h => h.eventsFreed

theorem Partial.drop_frees : Spec Pieces (Partial.drop idf) (Ends (fun _ => Holds .default) T C) := by
  refine spec_own fun o => ?_
  obtain ⟨made, client, ws, base, events⟩ := o
  refine Spec.bind (R := fun _ => Holds ⟨none, ws, base, events⟩) (spec_unlessNull ?_ ?_) fun _ => ?_
  · rintro rfl s ⟨h, hown⟩
    simpa only [Pieces, hown] using h
  · rintro client rfl
    refine (destroyClient_spec idf).pre ?_
    rintro s ⟨h, hown⟩
    simpa only [Pieces, hown] using h
  refine Spec.bind (R := fun _ => Holds ⟨none, none, base, events⟩) (spec_unlessNull ?_ ?_) fun _ => ?_
  · rintro rfl s h
    exact h
  · rintro ws rfl
    exact destroyWs_spec idf
  refine Spec.bind (R := fun _ => Holds ⟨none, none, none, events⟩) (spec_unlessNull ?_ ?_) fun _ => spec_unlessNull ?_ ?_
  · rintro rfl s h
    exact h
  · rintro base rfl
    exact destroyBase_spec idf
  · rintro rfl s h
    exact h
  · rintro events rfl
    exact freeEvents_spec

/-- What a transport has. -/
def WebSocketTransport.parts (t : WebSocketTransport) : Partial := ⟨some t.client, some t.ws, some t.base, some t.events⟩

theorem WebSocketTransport.drop_frees (t : WebSocketTransport) :
    Spec (Holds t.parts) (t.drop idf) (Ends (fun _ => Holds .default) T C) := by
  refine Spec.bind (R := fun _ => Holds t.parts) ?_ fun _ => ?_
  · exact Spec.when (fun _ => spec_call fun _ _ _ h => h.uses (by simp [TransportEvent.dealings])) fun _ _ h => h
  refine Spec.bind (destroyClient_spec idf) fun _ => ?_
  refine Spec.bind (destroyWs_spec idf) fun _ => ?_
  exact Spec.bind (destroyBase_spec idf) fun _ => freeEvents_spec

/-- What comes of an attempt to make something: there is one thing more, which is not kept yet, or there is what there
    was. -/
def Made (p : Partial) (p' : Handle → Partial) : Option Handle → Rec σ TransportEvent Sockets → Prop
  | some h, s => Holds (p' h) s ∧ s.own.held = p
  | none, s => Has p s

theorem spec_makeHandle {p : Partial} {p' : Handle → Partial} {f : σ → Bool × σ} {ev : Option Handle → TransportEvent}
    (under : Option Handle) (hunder : ∀ u ∈ under, u ∈ p.live) (hnone : (ev none).dealings = under.toList.map .use)
    (hsome : ∀ h, (ev (some h)).dealings = under.toList.map .use ++ .make h :: under.toList.map (.lend · h))
    (hlive : ∀ h, (p' h).live = h :: p.live) (hlent : ∀ h q, p.Lends q → (p' h).Lends q)
    (hnew : ∀ h, ∀ u ∈ under, (p' h).Lends (u, h)) :
    Spec (Has p) (makeHandle f ev) (Ends (Made p p') T C) := by
  rintro s ⟨hs, hheld⟩
  unfold makeHandle
  rcases f s.env with ⟨_ | _, env⟩
  · refine ⟨hs.uses ?_, hheld⟩
    rw [hnone]
    intro d hd
    obtain ⟨u, hu, rfl⟩ := List.mem_map.mp hd
    exact ⟨u, hunder u (Option.mem_toList.mp hu), rfl⟩
  · exact ⟨hs.makes under hunder (hsome _) (hlive _) (hlent _) (hnew _), hheld⟩

theorem makeTransport_spec {p : Partial} {p' : Handle → Partial} {f : σ → Bool × σ} {ev : Option Handle → TransportEvent}
    {what : String} (under : Option Handle) (hunder : ∀ u ∈ under, u ∈ p.live)
    (hnone : (ev none).dealings = under.toList.map .use)
    (hsome : ∀ h, (ev (some h)).dealings = under.toList.map .use ++ .make h :: under.toList.map (.lend · h))
    (hlive : ∀ h, (p' h).live = h :: p.live) (hlent : ∀ h q, p.Lends q → (p' h).Lends q)
    (hnew : ∀ h, ∀ u ∈ under, (p' h).Lends (u, h)) :
    Spec (Has p) (makeTransport f ev what) (Ends (fun h s => Holds (p' h) s ∧ s.own.held = p) Pieces C) := by
  refine Spec.bind (spec_makeHandle under hunder hnone hsome hlive hlent hnew) fun r => ?_
  cases r with
  | none => exact Spec.fail fun _ h => h.pieces
  | some h => exact Spec.ret fun _ h => h

/-- The piece that was made is kept where `Partial` keeps it. -/
theorem spec_modifyHeld {p q : Partial} {f : Partial → Partial} (hf : f p = q) :
    Spec (fun s : Rec σ TransportEvent Sockets => Holds q s ∧ s.own.held = p) (modifyHeld f)
      (Ends (fun _ => Has q) T C) := by
  rintro s ⟨h, hheld⟩
  exact ⟨h, (congrArg f hheld).trans hf⟩

theorem spec_esp {p : Partial} {err : EspErr} : Spec (Has p) (ofExcept (idf.esp err)) (Ends (fun _ => Has p) Pieces C) :=
  Spec.ofExcept (fun _ _ _ h => h) fun _ _ _ h => h.pieces

theorem makeBase_spec (config : SocketConfig) (certificate : Option (CStr × CStr)) :
    Spec (Has .default) (makeBase idf config certificate)
    (Ends (fun r => Has ⟨none, none, some r.1, none⟩) Pieces C) := by
  have hmade : ∀ {f : σ → Bool × σ} {what : String}, Spec (Has .default) (makeTransport f .baseInit what)
      (Ends (fun base s => Holds ⟨none, none, some base, none⟩ s ∧ s.own.held = .default) Pieces C) := by
    intro f what
    refine makeTransport_spec none (fun u hu => by cases hu) rfl (fun h => rfl) (fun h => rfl) ?_
      (fun h u hu => by cases hu)
    rintro h q (⟨hq, -⟩ | ⟨hq, -⟩ | ⟨hq, -⟩) <;> cases hq
  refine Spec.ite (fun _ => ?_) fun _ => ?_
  · refine Spec.bind (R := fun base s => Holds ⟨none, none, some base, none⟩ s ∧ s.own.held = .default) ?_ fun base => ?_
    · exact Spec.ite (fun _ => Spec.fail fun _ h => h.pieces) fun _ => hmade
    exact Spec.bind (spec_modifyHeld rfl) fun _ => Spec.ret fun _ h => h
  · exact Spec.bind hmade fun base => Spec.bind (spec_modifyHeld rfl) fun _ => Spec.ret fun _ h => h

theorem makeWs_spec (config : SocketConfig) (headers : Option String) (base : Handle) :
    Spec (Has ⟨none, none, some base, none⟩) (makeWs idf config headers base)
      (Ends (fun ws => Has ⟨none, some ws, some base, none⟩) Pieces C) := by
  refine Spec.bind (R := fun ws s => Holds ⟨none, some ws, some base, none⟩ s ∧
    s.own.held = ⟨none, none, some base, none⟩) ?_ fun ws => ?_
  · refine makeTransport_spec (some base) ?_ rfl (fun h => rfl) (fun h => rfl) ?_ ?_
    · rintro u ⟨⟩
      simp [Partial.live]
    · rintro h q (⟨-, hq⟩ | ⟨hq, -⟩ | ⟨hq, -⟩) <;> cases hq
    · rintro h u ⟨⟩
      exact Or.inl ⟨rfl, rfl⟩
  refine Spec.bind (spec_modifyHeld rfl) fun _ => ?_
  refine Spec.bind (R := fun _ => Has ⟨none, some ws, some base, none⟩)
    (Spec.ofExcept (fun _ _ _ h => h) fun _ _ _ h => h.pieces) fun path => ?_
  refine Spec.bind (R := fun _ => Has ⟨none, some ws, some base, none⟩)
    (Spec.ofExcept (fun _ _ _ h => h) fun _ _ _ h => h.pieces) fun headers => ?_
  refine Spec.bind (R := fun _ => Has ⟨none, some ws, some base, none⟩) ?_ fun err => ?_
  · exact spec_call fun _ _ _ h => ⟨h.1.uses (by simp [TransportEvent.dealings, Partial.live]), h.2⟩
  exact Spec.bind (spec_esp idf) fun _ => Spec.ret fun _ h => h

theorem makeClient_spec (config : SocketConfig) (ws base : Handle) :
    Spec (Has ⟨none, some ws, some base, none⟩) (makeClient idf config ws)
      (Ends (fun r => Has ⟨some r.1, some ws, some base, some r.2⟩) Pieces C) := by
  refine Spec.bind (R := fun _ => Has ⟨none, some ws, some base, none⟩)
    (Spec.ofExcept (fun _ _ _ h => h) fun _ _ _ h => h.pieces) fun uri => ?_
  refine Spec.bind (R := Made ⟨none, some ws, some base, none⟩ fun client => ⟨some client, some ws, some base, none⟩)
    (spec_makeHandle (some ws) ?_ rfl (fun h => rfl) (fun h => rfl) ?_ ?_) fun r => ?_
  · rintro u ⟨⟩
    simp [Partial.live]
  · rintro h q (hq | ⟨-, hq⟩ | ⟨hq, -⟩)
    · exact Or.inl hq
    · cases hq
    · cases hq
  · rintro h u ⟨⟩
    exact Or.inr (Or.inl ⟨rfl, rfl⟩)
  cases r with
  | none => exact Spec.fail fun _ h => h.pieces
  | some client =>
    refine Spec.bind (spec_modifyHeld rfl) fun _ => ?_
    refine Spec.bind (R := fun events => Has ⟨some client, some ws, some base, some events⟩) ?_ fun events => ?_
    · rintro s ⟨h, hheld⟩
      refine ⟨h.makes none (fun u hu => by cases hu) rfl rfl ?_ (fun u hu => by cases hu), ?_⟩
      · rintro q (hq | hq | ⟨hq, -⟩)
        · exact Or.inl hq
        · exact Or.inr (Or.inl hq)
        · cases hq
      · simp [hheld]
    refine Spec.bind (R := fun _ => Has ⟨some client, some ws, some base, some events⟩) ?_ fun err => ?_
    · refine spec_call fun s _ err h => ⟨h.1.lends rfl ?_ ?_ (Or.inr (Or.inr ⟨rfl, rfl⟩)), h.2⟩ <;> simp [Partial.live]
    refine Spec.bind (spec_esp idf) fun _ => ?_
    refine Spec.bind (R := fun _ => Has ⟨some client, some ws, some base, some events⟩) ?_ fun err => ?_
    · exact spec_call fun _ _ _ h => ⟨h.1.uses (by simp [TransportEvent.dealings, Partial.live]), h.2⟩
    exact Spec.bind (spec_esp idf) fun _ => Spec.ret fun _ h => h

namespace WebSocketTransport
variable (t : WebSocketTransport)

theorem client_live : t.client ∈ t.parts.live := by simp [parts, Partial.live]

theorem events_live : t.events ∈ t.parts.live := by simp [parts, Partial.live]

theorem isConnected_spec : Spec (Holds t.parts) (t.isConnected idf) (Ends (fun _ => Holds t.parts) T C) :=
  spec_call fun _ _ _ h => h.uses (by simpa [TransportEvent.dealings] using t.client_live)

theorem awaitConnected_spec (deadline : Nat) : Spec (Holds t.parts) (awaitConnected idf t deadline)
    (Ends (fun _ => Holds t.parts) (Holds t.parts) Sane) := by
  refine loop_spec (I := fun _ => Holds t.parts) (fun _ _ _ h => h) (fun _ _ h => h.sane) (fun _ => ?_) ()
  refine Spec.bind (t.isConnected_spec idf) fun connected => Spec.ite (fun _ => Spec.ret fun _ h => h) fun _ => ?_
  refine Spec.bind (R := fun _ => Holds t.parts) (spec_call fun _ _ _ h => h) fun now =>
    Spec.ite (fun _ => Spec.fail fun _ h => h) fun _ => ?_
  exact Spec.bind (R := fun _ => Holds t.parts) (spec_call fun _ _ _ h => h) fun _ => Spec.ret fun _ h => h

theorem use_spec (u : SocketUse) : Spec (Holds t.parts) (t.use idf u)
    (Ends (fun _ => Holds t.parts) (Holds t.parts) Sane) := by
  have hsent : ∀ {s : Rec σ TransportEvent Sockets} {env : σ} {n : Int}, Holds t.parts s →
      Holds t.parts { s with env := env, trace := .sent t.client n :: s.trace } := fun h =>
    h.uses (by simpa [TransportEvent.dealings] using t.client_live)
  have hlocked : ∀ {s : Rec σ TransportEvent Sockets} {env : σ}, Holds t.parts s →
      Holds t.parts { s with env := env, trace := .eventsLocked t.events :: s.trace } := fun h =>
    h.uses (by simpa [TransportEvent.dealings] using t.events_live)
  cases u with
  | isConnected => exact Spec.bind (t.isConnected_spec idf) fun _ => Spec.ret fun _ h => h
  | send frame =>
    refine Spec.bind (R := fun _ => Holds t.parts) (spec_call fun _ _ _ h => hsent h) fun sent => ?_
    exact Spec.ite (fun _ => Spec.fail fun _ h => h) fun _ => Spec.ret fun _ h => h
  | recvFrame =>
    refine Spec.bind (R := fun _ => Holds t.parts) ?_ fun _ => Spec.ret fun _ h => h
    refine Spec.bind (R := fun _ => Holds t.parts) (spec_call fun _ _ _ h => h) fun arrival => ?_
    split
    · exact Spec.bind (R := fun _ => Holds t.parts) (spec_call fun _ _ _ h => hlocked h) fun _ => Spec.ret fun _ h => h
    · exact Spec.fail fun _ h => h
    · refine Spec.bind (R := fun _ => Holds t.parts) (spec_call fun _ _ _ h => hlocked h) fun ends => ?_
      exact Spec.ite (fun _ => Spec.fail fun _ h => h) fun _ => Spec.ret fun _ h => h
    · exact Spec.ret fun _ h => h
    · exact Spec.fail fun _ h => h

end WebSocketTransport

variable [Signing]

theorem assemble_spec (config : SocketConfig) : Spec (Holds .default) (assemble idf config)
    (Ends (fun t => Holds t.parts) (Holds .default) C) := by
  refine Spec.bind (R := fun _ => Holds .default) ?_ fun auth => ?_
  · unfold authentication
    split
    · exact Spec.ret fun _ h => h
    · exact Spec.bind (spec_call fun _ _ _ h => h) fun _ => Spec.ret fun _ h => h
  refine Spec.bind (R := fun _ => Has .default) (fun s h => ⟨h, rfl⟩) fun _ => ?_
  refine spec_cleaningUp ?_ (Partial.drop_frees idf)
  refine Spec.bind (makeBase_spec idf config _) fun r => ?_
  refine Spec.bind (makeWs_spec idf config _ _) fun ws => ?_
  refine Spec.bind (makeClient_spec idf config _ _) fun r' => ?_
  exact Spec.bind (R := fun _ => Holds ⟨some r'.1, some ws, some r.1, some r'.2⟩) (fun s h => h.1) fun _ =>
    Spec.ret fun _ h => h

theorem WebSocketTransport.connect_spec (config : SocketConfig) : Spec (Holds .default) (connect idf config)
    (Ends (fun t => Holds t.parts) (Holds .default) Sane) := by
  refine Spec.bind (assemble_spec idf config) fun t => ?_
  refine Spec.bind (R := fun _ => Holds t.parts) (spec_call fun _ _ _ h => h) fun now => ?_
  refine Spec.bind (spec_cleaningUp (t.awaitConnected_spec idf _) (t.drop_frees idf)) fun _ => Spec.ret fun _ h => h

/-! ### Sessions -/

theorem socketLife_spec (config : SocketConfig) (uses : List SocketUse) : Spec (Holds .default) (socketLife idf config uses)
    (Ends (fun _ => Holds .default) (Holds .default) Sane) := by
  refine Spec.bind (Spec.attempt (X := Holds .default) (WebSocketTransport.connect_spec idf config)) fun r => ?_
  cases r with
  | error e => exact Spec.ret fun _ h => h
  | ok t =>
    refine Spec.bind (R := fun _ => Holds t.parts) (Spec.forM (fun u => ?_) uses) fun _ => t.drop_frees idf
    refine Spec.bind (Spec.attempt (X := Holds .default) (t.use_spec idf u)) fun r => Spec.ret ?_
    cases r with
    | ok _ => exact fun _ h => h
    | error _ => exact fun _ h => h

/-- Over any sessions, however each of them ends, and whatever the clients' tasks do meanwhile: nothing is used that was not
    made or is released, nothing is released twice or while something may use it, and once no session is going on
    everything that was made has been released. -/
theorem handles_sound (config : SocketConfig) (lives : List (List SocketUse)) (env : σ) (gas : Nat)
    (u : List TransportEvent)
    (hu : Visited TransportEvent.dealings taskRuns (socketLives idf config lives ⟨env, ⟨0, .default⟩, [], gas⟩).2.trace u) :
    ∃ x, after TransportEvent.dealings u = some x ∧ ((socketLives idf config lives ⟨env, ⟨0, .default⟩, [], gas⟩).1 ≠ .cut →
      ∀ h, makes TransportEvent.dealings h u = releases TransportEvent.dealings h u) := by
  have hspec := Spec.forM (socketLife_spec idf config) lives ⟨env, ⟨0, .default⟩, [], gas⟩
    ⟨.empty, rfl, rfl, by simp [Heap.empty], by simp [Partial.live, Partial.default]⟩
  have hfree : Holds .default (socketLives idf config lives ⟨env, ⟨0, .default⟩, [], gas⟩).2 →
      ∃ x, after TransportEvent.dealings u = some x ∧ ∀ h, makes TransportEvent.dealings h u =
          releases TransportEvent.dealings h u := by
    rintro ⟨x, hx, hlive, -⟩
    have hux := hu.after_some taskRuns_uses hx
    refine ⟨x, hux, fun h => ?_⟩
    rw [makes_eq hux, hlive]
    rfl
  rw [← socketLives] at hspec
  rcases ho : (socketLives idf config lives ⟨env, ⟨0, .default⟩, [], gas⟩).1 with a | e | _ <;> rw [ho] at hspec
  · obtain ⟨x, hx, heq⟩ := hfree hspec
    exact ⟨x, hx, fun _ => heq⟩
  · obtain ⟨x, hx, heq⟩ := hfree hspec
    exact ⟨x, hx, fun _ => heq⟩
  · obtain ⟨x, hx⟩ := hspec
    exact ⟨x, hu.after_some taskRuns_uses hx, fun h => absurd rfl h⟩

end

end

/-! ### A session on a bench -/

/-- A client that has a connection when it is asked a second time, over TLS and with memory for everything. -/
def benchSocket : EspSocket Nat where
  tcpInit n := (true, n)
  tlsInit _ n := (true, n)
  wsInit n := (true, n)
  wsSetConfig _ n := (0, n)
  clientInit _ n := (true, n)
  registerEvents n := (0, n)
  clientStart n := (0, n)
  isConnected n := (n ≠ 0, n + 1)
  sendText text n := (text.utf8ByteSize, n)
  sendBin bytes n := (bytes.length, n)
  recvTimeout _ n := (.timeout, n)
  endsSession _ n := (false, n)
  now n := (0, n)
  sleep _ n := ((), n)
  wallSecs n := (none, n)
  stop n := ((), n)
  clientDestroy n := (0, n)
  transportDestroy n := (0, n)
  errText _ := "ESP_FAIL"
  hasTls13 := false

def socketBenchCert : CStr := ⟨[112, 101, 109], by decide⟩

def socketBenchConfig : SocketConfig where
  deviceApiVersion := "2.4.0"
  heartbeatIntervalSecs := 30
  reconnectBackoffSecs := [1, 2, 5, 10, 30, 60]
  progressStepPercent := 5
  extensions := .none
  serializer := .json
  host := "devices"
  port := 443
  credentials := .clientCertificate socketBenchCert socketBenchCert
  serverCa := none
  useTls := true
  connectTimeoutSecs := 10
  tlsVersion := .any

@[reducible] def noSigning : Signing := ⟨fun _ _ => [], fun _ _ _ _ => []⟩

/-- What a session that sends one frame comes to. -/
def benchTrace : List TransportEvent :=
  [.eventsFreed 3, .transportDestroyed 0, .transportDestroyed 1, .clientDestroyed 2, .stopped, .sent 2 5,
    .askedConnected 2 true, .askedConnected 2 false, .clientStarted 2 0, .eventsRegistered 2 3 0, .eventsBoxed 3,
    .clientInit 1 (some 2), .wsConfigured 1 0, .wsInit 0 (some 1), .baseInit (some 0)]

theorem benchSocket_runs : (@socketLives Nat benchSocket noSigning socketBenchConfig [[.send (.text "hello")]]
    ⟨0, ⟨0, .default⟩, [], 5⟩).2.trace = benchTrace := by
  decide +kernel

/-- The client's task hands on an event, then writes to the transport under the websocket, just before it is stopped. -/
theorem benchTrace_visited : Visited TransportEvent.dealings taskRuns benchTrace
    (benchTrace.take 5 ++ .task 2 0 :: .task 2 3 :: benchTrace.drop 5) := by
  have hosts : ∀ t, Visited TransportEvent.dealings taskRuns t t := by
    intro t
    induction t with
    | nil => exact .nil
    | cons e t ih => exact .host e ih
  obtain ⟨x, hx, hlive, hlent⟩ : ∃ x, after TransportEvent.dealings (benchTrace.drop 5) = some x ∧ x.live = [3, 2, 1, 0] ∧
      x.lent = [(3, 2), (1, 2), (0, 1)] := ⟨_, rfl, rfl, rfl⟩
  have hclient : 2 ∈ x.live := by
    rw [hlive]
    decide
  refine .host _ <| .host _ <| .host _ <| .host _ <| .host _ <| .guest (.guest (hosts _) hx ⟨2, 3, rfl, hclient, ?_⟩) hx
    ⟨2, 0, rfl, hclient, ?_⟩
  · exact .single (by rw [hlent]; decide)
  · exact .tail (.single (b := 1) (by rw [hlent]; decide)) (by rw [hlent]; decide)

theorem handles_sound_bench : ∃ x, after TransportEvent.dealings
    (benchTrace.take 5 ++ .task 2 0 :: .task 2 3 :: benchTrace.drop 5) = some x ∧
    ((@socketLives Nat benchSocket noSigning socketBenchConfig [[.send (.text "hello")]]
      ⟨0, ⟨0, .default⟩, [], 5⟩).1 ≠ .cut →
      ∀ h, makes TransportEvent.dealings h (benchTrace.take 5 ++ .task 2 0 :: .task 2 3 :: benchTrace.drop 5) =
        releases TransportEvent.dealings h (benchTrace.take 5 ++ .task 2 0 :: .task 2 3 :: benchTrace.drop 5)) :=
  @handles_sound Nat benchSocket noSigning socketBenchConfig [[.send (.text "hello")]] 0 5 _
    (benchSocket_runs.symm ▸ benchTrace_visited)

end NervesHub
