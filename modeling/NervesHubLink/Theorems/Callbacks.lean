import NervesHubLink.Callbacks
import NervesHubLink.Theorems.Tickets

/-! What the TLS transport's callbacks do, in any order and over any number of boots: they misuse nothing that esp-tls gave
them, they wait before they read or write, and what they offer of a saved session was left there and has aged with the wall
clock. -/

namespace NervesHub
open Act Prog Ownership Trace

section
variable [MbedTls]

/-- What an event does with the objects. -/
def TlsEvent.dealings : TlsEvent → List (Dealing TlsObject)
  | .init (some tls) => [.make tls]
  | .loaded object _ _ _ => [.make object, .use object]
  | .connNew tls cfg _ _ => .use tls :: cfg.clientSession.toList.map fun p => .use p.1
  | .asked tls => [.use tls]
  | .socket tls _ _ => [.use tls]
  | .avail tls _ => [.use tls]
  | .read tls _ => [.use tls]
  | .wrote tls _ => [.use tls]
  | .gave tls object _ _ => [.use tls, .make object, .use object]
  | .sessionFreed object => [.release object]
  | .destroyed tls => [.release tls]
  | _ => []

/-- What an event is for the session's tickets. -/
def TlsEvent.tickets : TlsEvent → List TicketEvent
  | .loaded _ clocks bytes (some session) => [.offered clocks bytes session]
  | .gave _ _ clocks session => [.gave clocks session]
  | .restored bytes => [.restored bytes]
  | _ => []

/-- The bytes were left in the slot, and since then neither forgotten nor offered in a handshake that failed. -/
def Left (bytes : List UInt8) : List TlsEvent → Prop
  | [] => False
  | .stored b _ :: _ => b = bytes
  | .restored b :: _ => b = bytes
  | .forgot :: _ => False
  | .connNew _ _ (some _) n :: older => 0 < n ∧ Left bytes older
  | _ :: older => Left bytes older

/-- What goes into a handshake of the bytes that are offered: the session that they were just read back as; or nothing, if
they could not be. -/
def Presented (loaded : Option (TlsObject × MbedtlsSession MbedTls.Rest)) (older : List TlsEvent) :
    Option (List UInt8) → Prop
  | none => loaded = none
  | some bytes => ∃ object clocks older',
    (∃ session, older = .loaded object clocks bytes (some session) :: older' ∧ loaded = some (object, session)) ∨
      (older = .sessionFreed object :: .loaded object clocks bytes none :: older' ∧ loaded = none)

/-- The connection that there is, with its socket, as esp-tls told it. -/
def ownSocket : List TlsEvent → Option (TlsObject × Int)
  | [] => none
  | .socket tls err fd :: _ => if err = 0 then some (tls, fd) else none
  | .destroyed _ :: _ => none
  | _ :: older => ownSocket older

/-- The newest handshake was made, and no session was stored since. -/
def Unkept : List TlsEvent → Prop
  | [] => False
  | .connNew _ _ _ n :: _ => 0 < n
  | .stored _ _ :: _ => False
  | _ :: older => Unkept older

/-- What was offered in the newest handshake. -/
def offeredLast : List TlsEvent → Option (List UInt8)
  | [] => none
  | .connNew _ _ offered _ :: _ => offered
  | _ :: older => offeredLast older

/-- The server is verified, by the named CA or else by the bundle, and every length counts the NUL. -/
structure EspTlsCfg.Verifies (cfg : EspTlsCfg) : Prop where
  server : cfg.cacert.isSome = !cfg.crtBundleAttach
  device : cfg.clientcert.isSome = cfg.clientkey.isSome
  lengths : ∀ text n, (cfg.cacert = some (text, n) ∨ cfg.clientcert = some (text, n) ∨ cfg.clientkey = some (text, n)) →
    n = text.bytes.length + 1

/-- The sets hold just the socket, the last of the numbers that are looked at, and one direction is asked for. -/
structure Selection.One (selection : Selection) (fd : Int) : Prop where
  nonneg : 0 ≤ fd
  last : selection.nfds = fd + 1
  direction : selection.reads.isSome = !selection.writes.isSome
  sets : ∀ set, (selection.reads = some set ∨ selection.writes = some set ∨ selection.failed = set) →
    ∀ fd', set.contains fd' = true ↔ fd' = fd

/-- There is something to read, as just was found. -/
def Readable (tls : TlsObject) : List TlsEvent → Prop
  | .avail tls' n :: _ => tls' = tls ∧ 0 < n
  | .selected selection n :: .avail tls' _ :: _ => tls' = tls ∧ selection.reads.isSome = true ∧ 0 < n
  | _ => False

/-- What is true of an event when it happens. -/
def TlsEvent.Judged : TlsEvent → List TlsEvent → Prop
  | .loaded _ clocks bytes session, _ => session = loadSession clocks bytes
  | .connNew _ cfg offered _, older => cfg.Verifies ∧ (∀ bytes, offered = some bytes → Left bytes older) ∧
    (∀ bytes, Left bytes older → bytes ≠ [] → offered = some bytes) ∧ Presented cfg.clientSession older offered
  | .selected selection _, older => ∃ tls fd, ownSocket older = some (tls, fd) ∧ selection.One fd
  | .read tls _, older => (∃ fd, ownSocket older = some (tls, fd)) ∧ Readable tls older
  | .wrote tls _, older => (∃ fd, ownSocket older = some (tls, fd)) ∧
    ∃ selection n older', older = .selected selection n :: older' ∧ selection.writes.isSome = true ∧ 0 < n
  | .recorded handshake, older => Unkept older ∧ (handshake = .resumed → (offeredLast older).isSome = true)
  | .stored _ handshake, older => Unkept older ∧ (handshake = .resumed → (offeredLast older).isSome = true)
  | _, _ => True

end

/-! ### The set of sockets -/

namespace FdSet

/-- The bits of a word are different bits. -/
theorem bit_and : ∀ r r' : Fin 32,
    ((0 : UInt32) ||| (1 <<< UInt32.ofNat r.val)) &&& (1 <<< UInt32.ofNat r'.val) ≠ 0 ↔ r' = r := by
  decide +kernel

theorem add_zeroed {words : Nat} {fd : Int} {set : FdSet} (h : FdSet.add (List.replicate words 0) fd = some set) :
    0 ≤ fd ∧ ∀ fd', set.contains fd' = true ↔ fd' = fd := by
  unfold add at h
  split at h
  · cases h
  · rename_i hfd
    obtain ⟨word, hword, rfl⟩ := Option.map_eq_some_iff.mp h
    obtain ⟨hlt, rfl⟩ := List.getElem?_eq_some_iff.mp hword
    rw [List.length_replicate] at hlt
    refine ⟨Int.not_lt.mp hfd, fun fd' => ?_⟩
    unfold contains
    split
    · rename_i hfd'
      refine iff_of_false (by simp) ?_
      rintro rfl
      exact hfd hfd'
    · rename_i hfd'
      by_cases hsame : fd'.toNat / bits = fd.toNat / bits
      · have hbits := (bit_and ⟨fd.toNat % bits, Nat.mod_lt _ (by decide)⟩
          ⟨fd'.toNat % bits, Nat.mod_lt _ (by decide)⟩).trans
          Fin.ext_iff
        have hplace : fd'.toNat % bits = fd.toNat % bits ↔ fd' = fd := by
          unfold bits at hsame ⊢
          omega
        rw [hsame, List.getElem?_set_self (by simpa using hlt), List.getElem_replicate, Option.any_some, bne_iff_ne,
          hbits, hplace]
      · have hne : fd' ≠ fd := by
          rintro rfl
          exact hsame rfl
        refine iff_of_false ?_ hne
        rw [List.getElem?_set_ne (Ne.symm hsame)]
        cases hother : (List.replicate words (0 : UInt32))[fd'.toNat / bits]? with
        | none => simp
        | some other =>
          obtain ⟨-, rfl⟩ := List.getElem?_eq_some_iff.mp hother
          simp

end FdSet

/-! ### What is true between two steps of a callback -/

section
variable [MbedTls] {σ : Type}

/-- The objects that there are, and what was judged so far. -/
structure Owns (live : List TlsObject) (s : Rec σ TlsEvent TlsTask) : Prop where
  heap : ∃ x, after TlsEvent.dealings s.trace = some x ∧ x.live = live ∧ x.lent = []
  made : ∀ h ∈ live, h < s.own.made
  judged : Throughout TlsEvent.Judged s.trace
  verifies : s.own.cfg.Verifies

/-- What the slot has was left there, and what was left there it has, but for a session of no bytes. -/
def SlotLeft (s : Rec σ TlsEvent TlsTask) : Prop := ∀ bytes,
  (s.own.session.saved = some bytes → Left bytes s.trace) ∧
    (Left bytes s.trace → bytes ≠ [] → s.own.session.saved = some bytes)

/-- The slot, up to the name of the protocol, is one that a device comes to. -/
def Living (due : Option Handshake) (s : Rec σ TlsEvent TlsTask) : Prop :=
  ∃ name, Lives ⟨{ s.own.session with protocol := name }, due⟩ (s.trace.flatMap TlsEvent.tickets)

variable {live : List TlsObject} {due : Option Handshake} {s : Rec σ TlsEvent TlsTask} {e : TlsEvent} {env : σ} {gas : Nat}

namespace Owns

/-- An event that uses what there is. -/
theorem uses (h : Owns live s) (e : TlsEvent) (env : σ) (he : ∀ d ∈ e.dealings, ∃ h ∈ live, d = .use h)
    (hj : e.Judged s.trace) :
    Owns live { s with env := env, trace := e :: s.trace } := by
  obtain ⟨x, hx, hlive, hlent⟩ := h.heap
  exact ⟨⟨x, (after_cons hx).trans (Heap.run_uses (hlive ▸ he)), hlive, hlent⟩, h.made,
    throughout_cons.mpr ⟨hj, h.judged⟩, h.verifies⟩

/-- Something is made, out of what there is. -/
theorem makes (h : Owns live s) (e : TlsEvent) (env : σ) (before : List TlsObject) (after : List (Dealing TlsObject))
    (hbefore : ∀ b ∈ before, b ∈ live)
    (hafter : ∀ d ∈ after, d = .use s.own.made) (he : e.dealings = before.map .use ++ .make s.own.made :: after)
    (hj : e.Judged s.trace) :
    Owns (s.own.made :: live) { s with env := env, own := { s.own with made := s.own.made + 1 }, trace := e ::
      s.trace } := by
  obtain ⟨x, hx, hlive, hlent⟩ := h.heap
  have hfresh : s.own.made ∉ x.live := fun hm => Nat.lt_irrefl _ (h.made _ (hlive ▸ hm))
  obtain ⟨y, hy, hylive, hylent⟩ := Heap.step_make hfresh
  have huses : (before.map .use).foldlM Heap.step x = some x := by
    refine Heap.run_uses fun d hd => ?_
    obtain ⟨b, hb, rfl⟩ := List.mem_map.mp hd
    exact ⟨b, hlive ▸ hbefore b hb, rfl⟩
  have hused : after.foldlM Heap.step y = some y := by
    refine Heap.run_uses fun d hd => ⟨s.own.made, ?_, hafter d hd⟩
    rw [hylive]
    exact List.mem_cons_self
  refine ⟨⟨y, (after_cons hx).trans ?_, by rw [hylive, hlive], hylent.trans hlent⟩, ?_,
    throughout_cons.mpr ⟨hj, h.judged⟩, h.verifies⟩
  · rw [he, List.foldlM_append, huses]
    simpa [hy] using hused
  · exact List.forall_mem_cons.mpr ⟨Nat.lt_succ_self _, fun b hb => (h.made b hb).trans (Nat.lt_succ_self _)⟩

/-- The newest object is given back. -/
theorem releases {object : TlsObject} (h : Owns (object :: live) s) (e : TlsEvent) (env : σ)
    (he : e.dealings = [.release object]) (hj : e.Judged s.trace) :
    Owns live { s with env := env, trace := e :: s.trace } := by
  obtain ⟨x, hx, hlive, hlent⟩ := h.heap
  obtain ⟨y, hy, hylive, hylent⟩ := Heap.step_release (x := x) (h := object) (hlive ▸ List.mem_cons_self) (by simp [hlent])
  refine ⟨⟨y, (after_cons hx).trans ?_, ?_, ?_⟩, fun b hb => h.made b (List.mem_cons_of_mem _ hb),
    throughout_cons.mpr ⟨hj, h.judged⟩, h.verifies⟩
  · rw [he, List.foldlM_cons, hy]
    rfl
  · rw [hylive, hlive, List.erase_cons_head]
  · rw [hylent, hlent]
    rfl

/-- A change that has nothing to do with the objects. -/
theorem aside (h : Owns live s) (env : σ) (own : TlsTask) (hmade : own.made = s.own.made) (hcfg : own.cfg.Verifies) :
    Owns live { s with env := env, own := own } := ⟨h.heap, hmade ▸ h.made, h.judged, hcfg⟩

end Owns

/-- An event that has nothing to do with the saved session. -/
structure TlsEvent.Quiet (e : TlsEvent) : Prop where
  tickets : e.tickets = []
  left : ∀ bytes older, Left bytes (e :: older) ↔ Left bytes older
  unkept : ∀ older, Unkept (e :: older) ↔ Unkept older
  offered : ∀ older, offeredLast (e :: older) = offeredLast older

theorem quiet_asked {tls : TlsObject} : (TlsEvent.asked tls).Quiet :=
  ⟨rfl, fun _ _ => Iff.rfl, fun _ => Iff.rfl, fun _ => rfl⟩

theorem quiet_socket {tls : TlsObject} {err : EspErr} {fd : Int} : (TlsEvent.socket tls err fd).Quiet :=
  ⟨rfl, fun _ _ => Iff.rfl, fun _ => Iff.rfl, fun _ => rfl⟩

theorem quiet_freed {object : TlsObject} : (TlsEvent.sessionFreed object).Quiet :=
  ⟨rfl, fun _ _ => Iff.rfl, fun _ => Iff.rfl, fun _ => rfl⟩

theorem quiet_destroyed {tls : TlsObject} : (TlsEvent.destroyed tls).Quiet :=
  ⟨rfl, fun _ _ => Iff.rfl, fun _ => Iff.rfl, fun _ => rfl⟩

theorem quiet_init {tls : Option TlsObject} : (TlsEvent.init tls).Quiet :=
  ⟨rfl, fun _ _ => Iff.rfl, fun _ => Iff.rfl, fun _ => rfl⟩

theorem SlotLeft.quiet (h : SlotLeft s) (env : σ) (hq : e.Quiet) : SlotLeft { s with env := env, trace := e :: s.trace } :=
  fun bytes => ⟨fun hsaved => (hq.left bytes s.trace).mpr ((h bytes).1 hsaved),
    fun hleft => (h bytes).2 ((hq.left bytes s.trace).mp hleft)⟩

theorem SlotLeft.forgot : SlotLeft { s with
    env := env, own := { s.own with session := s.own.session.forget }, trace := .forgot :: s.trace } :=
  fun _ => ⟨nofun, nofun⟩

theorem Living.quiet (h : Living due s) (env : σ) (hq : e.tickets = []) :
    Living due { s with env := env, trace := e :: s.trace } := by
  obtain ⟨name, h⟩ := h
  refine ⟨name, ?_⟩
  rw [List.flatMap_cons, hq]
  exact h

theorem Living.forgot (h : Living due s) : Living due { s with
    env := env, own := { s.own with session := s.own.session.forget }, trace := .forgot :: s.trace } := by
  obtain ⟨name, h⟩ := h
  exact ⟨name, h.forgets⟩

theorem Living.closes (h : Living due s) : Living none s := by
  obtain ⟨name, h⟩ := h
  exact ⟨name, h.closes⟩

/-- Between two callbacks the connection is the only object. -/
structure Rest (s : Rec σ TlsEvent TlsTask) : Prop where
  owns : Owns s.own.tls.toList s
  left : SlotLeft s
  living : Living s.own.ticketDue s
  noSession : s.own.cfg.clientSession = none
  due : ∀ handshake, s.own.ticketDue = some handshake →
    Unkept s.trace ∧ (handshake = .resumed → (offeredLast s.trace).isSome = true)
  context : s.own.hasContext = false → s.own.tls = none ∧ s.own.ticketDue = none
  socket : ∀ tls, s.own.tls = some tls → ownSocket s.trace = some (tls, s.own.sockfd)

theorem Rest.quiet (h : Rest s) (hq : e.Quiet) (hsocket : ownSocket (e :: s.trace) = ownSocket s.trace)
    (he : ∀ d ∈ e.dealings, ∃ h ∈ s.own.tls.toList, d = .use h) (hj : e.Judged s.trace) :
    Rest { s with env := env, trace := e :: s.trace } := by
  refine ⟨h.owns.uses _ _ he hj, h.left.quiet _ hq, h.living.quiet _ hq.tickets, h.noSession, fun handshake hdue =>
    ?_, h.context,
    fun tls htls => hsocket.trans (h.socket tls htls)⟩
  obtain ⟨hunkept, hoffered⟩ := h.due handshake hdue
  exact ⟨(hq.unkept _).mpr hunkept, (hq.offered _).symm ▸ hoffered⟩

/-- In `connect`, before the connection is the transport's. -/
structure Connecting (live : List TlsObject) (s : Rec σ TlsEvent TlsTask) : Prop where
  owns : Owns live s
  living : Living none s
  tls : s.own.tls = none ∧ s.own.hasContext = true
  due : s.own.ticketDue = none

namespace Connecting

theorem quiet (h : Connecting live s) {live' : List TlsObject} (hq : e.tickets = [])
    (howns : Owns live' { s with env := env, trace := e :: s.trace }) :
    Connecting live' { s with env := env, trace := e :: s.trace } :=
  ⟨howns, h.living.quiet _ hq, h.tls, h.due⟩

theorem forgot (h : Connecting live s) : Connecting live { s with
    env := env, own := { s.own with session := s.own.session.forget }, trace := .forgot :: s.trace } :=
  ⟨(h.owns.uses .forgot env (by simp [TlsEvent.dealings]) trivial).aside _ _ rfl h.owns.verifies,
    h.living.forgot, h.tls, h.due⟩

theorem rest (h : Connecting [] s) (hleft : SlotLeft s) (hsession : s.own.cfg.clientSession = none) : Rest s := by
  refine ⟨?_, hleft, h.due ▸ h.living, hsession, fun handshake hdue => ?_, fun _ => ⟨h.tls.1, h.due⟩, fun tls htls => ?_⟩
  · rw [h.tls.1]
    exact h.owns
  · rw [h.due] at hdue
    cases hdue
  · rw [h.tls.1] at htls
    cases htls

end Connecting

/-- Before the handshake, with the connection that it is for. -/
structure Begun (tls : Option TlsObject) (s : Rec σ TlsEvent TlsTask) : Prop extends Connecting tls.toList s where
  left : SlotLeft s
  noSession : s.own.cfg.clientSession = none

theorem Begun.rest (h : Begun none s) : Rest s := h.toConnecting.rest h.left h.noSession

theorem Begun.forgot {tls : Option TlsObject} (h : Begun tls s) : Begun tls { s with
    env := env, own := { s.own with session := s.own.session.forget }, trace := .forgot :: s.trace } :=
  ⟨h.toConnecting.forgot, .forgot, h.noSession⟩

/-- Before the handshake, with what is offered in it. -/
structure Offering (tls : TlsObject) (offered : Option (List UInt8))
    (loaded : Option (TlsObject × MbedtlsSession MbedTls.Rest))
    (s : Rec σ TlsEvent TlsTask) : Prop extends Connecting (loaded.toList.map Prod.fst ++ [tls]) s where
  left : SlotLeft s
  saved : s.own.session.saved = offered
  presented : Presented loaded s.trace offered

/-- After the handshake. -/
structure Tried (live : List TlsObject) (offered : Option (List UInt8)) (n : Int) (s : Rec σ TlsEvent TlsTask) : Prop
    extends Connecting live s where
  left : 0 < n ∨ offered = none → SlotLeft s
  offered : offeredLast s.trace = offered
  unkept : 0 < n → Unkept s.trace

theorem Tried.quiet {offered : Option (List UInt8)} {n : Int} (h : Tried live offered n s) {live' : List TlsObject}
    (hq : e.Quiet) (howns : Owns live' { s with env := env, trace := e :: s.trace }) :
      Tried live' offered n { s with env := env, trace := e :: s.trace } :=
  ⟨h.toConnecting.quiet hq.tickets howns, fun hn => (h.left hn).quiet _ hq, (hq.offered _).trans h.offered,
    fun hn => (hq.unkept _).mpr (h.unkept hn)⟩

/-- The transport has its connection, of which no session is stored yet. -/
structure Unsaved (object : TlsObject) (offered : Option (List UInt8)) (s : Rec σ TlsEvent TlsTask) : Prop where
  owns : Owns [object] s
  tls : s.own.tls = some object ∧ s.own.hasContext = true
  left : SlotLeft s
  noSession : s.own.cfg.clientSession = none
  offered : offeredLast s.trace = offered
  unkept : Unkept s.trace
  socket : ownSocket s.trace = some (object, s.own.sockfd)

namespace Unsaved
variable {tls : TlsObject} {offered : Option (List UInt8)}

theorem quiet (h : Unsaved tls offered s) (hq : e.Quiet) (hsocket : ownSocket (e :: s.trace) = ownSocket s.trace)
    (howns : Owns [tls] { s with env := env, trace := e :: s.trace }) :
    Unsaved tls offered { s with env := env, trace := e :: s.trace } :=
  ⟨howns, h.tls, h.left.quiet _ hq, h.noSession, (hq.offered _).trans h.offered, (hq.unkept _).mpr h.unkept,
    hsocket.trans h.socket⟩

theorem forgot (h : Unsaved tls offered s) : Unsaved tls offered { s with
    env := env, own := { s.own with session := s.own.session.forget }, trace := .forgot :: s.trace } :=
  ⟨(h.owns.uses .forgot env (by simp [TlsEvent.dealings]) trivial).aside _ _ rfl h.owns.verifies, h.tls,
    .forgot, h.noSession,
    h.offered, h.unkept, h.socket⟩

theorem rest (h : Unsaved tls offered s) (hliving : Living s.own.ticketDue s)
    (hdue : ∀ handshake, s.own.ticketDue = some handshake → handshake = .resumed → offered.isSome = true) : Rest s := by
  refine ⟨?_, h.left, hliving, h.noSession, fun handshake hd => ⟨h.unkept, fun hr => ?_⟩, fun hno =>
    ?_, fun tls' htls => ?_⟩
  · rw [h.tls.1]
    exact h.owns
  · rw [h.offered]
    exact hdue handshake hd hr
  · rw [h.tls.2] at hno
    cases hno
  · rw [h.tls.1] at htls
    cases htls
    exact h.socket

end Unsaved

/-- What the bytes to be stored come of. The session that they were saved from is the newest. -/
def Pending (due : Option Handshake) (bytes : List UInt8) (s : Rec σ TlsEvent TlsTask) : Prop :=
  ∃ name clocks session t, s.trace.flatMap TlsEvent.tickets = .gave clocks session :: t ∧
    Lives ⟨{ s.own.session with protocol := name }, due⟩ t ∧ MbedTls.save (redateTicket clocks session .wall) = some bytes

def Given (due : Option Handshake) : Option (List UInt8) → Rec σ TlsEvent TlsTask → Prop
  | none => Living due
  | some bytes => Pending due bytes

theorem Pending.forgot {bytes : List UInt8} (h : Pending due bytes s) : Pending due bytes { s with
    env := env, own := { s.own with session := s.own.session.forget }, trace := .forgot :: s.trace } := by
  obtain ⟨name, clocks, session, t, ht, hlives, hsave⟩ := h
  exact ⟨name, clocks, session, t, ht, hlives.forgets, hsave⟩

/-! ### The session's part -/

variable (esp : EspTls σ) {T C : Rec σ TlsEvent TlsTask → Prop} {tls : TlsObject} {offered : Option (List UInt8)}

/-- What is done under the slot's lock, whether the application comes first or not. -/
theorem spec_lockSession {α : Type} {f : TlsSession → α × TlsSession} {ev : List TlsEvent}
    {P : Rec σ TlsEvent TlsTask → Prop}
    {Q : α → Rec σ TlsEvent TlsTask → Prop} (henv : ∀ s env, P s → P { s with env := env })
    (hforgot : ∀ s, P s → P { s with own := { s.own with session := s.own.session.forget }, trace := .forgot :: s.trace })
    (hf : ∀ s, P s → Q (f s.own.session).1 { s with own := { s.own with session := (f s.own.session).2 }, trace := ev ++
      s.trace }) :
    Spec P (lockSession esp f ev) (Ends Q T C) := by
  refine Spec.bind (R := fun _ => P) (spec_call fun s env _ h => henv s env h) fun forgotten => ?_
  exact Spec.bind (R := fun _ => P) (Spec.when (fun _ s h => hforgot s h) fun _ _ h => h) fun _ s h => hf s h

theorem saveConnSession_spec (due d : Option Handshake) :
    Spec (fun s => Unsaved tls offered s ∧ Living due s ∧ s.own.ticketDue = d)
    (saveConnSession esp tls) (Ends (fun r s => Unsaved tls offered s ∧ Given due r s ∧ s.own.ticketDue = d) T C) := by
  have hasked : ∀ {s : Rec σ TlsEvent TlsTask} {env : σ}, Unsaved tls offered s →
      Unsaved tls offered { s with env := env, trace := .asked tls :: s.trace } := fun h =>
    h.quiet quiet_asked rfl (h.owns.uses _ _ (by simp [TlsEvent.dealings]) trivial)
  refine Spec.bind (R := fun _ s => Unsaved tls offered s ∧ Living due s ∧ s.own.ticketDue = d) ?_ fun session => ?_
  · exact spec_call fun s env _ ⟨h, hliving, hd⟩ => ⟨hasked h, hliving.quiet _ rfl, hd⟩
  · cases session with
    | none => exact Spec.ret fun s h => h
    | some session =>
      refine Spec.bind (R := fun _ s => Unsaved tls offered s ∧ Living due s ∧ s.own.ticketDue = d) ?_ fun clocks => ?_
      · exact spec_call fun s env _ ⟨h, hliving, hd⟩ => ⟨⟨h.owns.aside _ _ rfl h.owns.verifies, h.tls, h.left, h.noSession,
          h.offered, h.unkept, h.socket⟩, hliving, hd⟩
      · rintro s ⟨h, ⟨name, hlives⟩, hd⟩
        -- A copy of the session is made, saved and given back.
        have hmade := h.owns.makes (.gave tls s.own.made clocks session) s.env [tls] [.use s.own.made] (by simp)
          (by simp) rfl trivial
        have hfreed := hmade.releases (.sessionFreed s.own.made) s.env rfl trivial
        refine ⟨⟨hfreed, h.tls, h.left, h.noSession, h.offered, h.unkept, h.socket⟩, ?_, hd⟩
        cases hsave : MbedTls.save (redateTicket clocks session .wall) with
        | some bytes => exact ⟨name, clocks, session, _, rfl, hlives, hsave⟩
        | none =>
          refine ⟨name, ?_⟩
          have hreads := hlives.reads clocks (some session)
          cases due with
          | none => exact hreads
          | some handshake =>
            simp only [SessionContext.read, saveSession, Option.bind_some, hsave] at hreads
            exact hreads

/-- A session is stored, of which the bytes were just saved. -/
theorem Unsaved.stored {bytes : List UInt8} {handshake : Handshake} (h : Unsaved tls offered s)
    (hresumed : handshake = .resumed → offered.isSome = true) :
    Owns [tls] { s with
      own := { s.own with session := s.own.session.store bytes handshake }, trace := .stored bytes handshake :: s.trace } ∧
    SlotLeft { s with
      own := { s.own with session := s.own.session.store bytes handshake }, trace :=
          .stored bytes handshake :: s.trace } := by
  have hjudged : (TlsEvent.stored bytes handshake).Judged s.trace := ⟨h.unkept, fun hr => h.offered.symm ▸ hresumed hr⟩
  refine ⟨(h.owns.uses (.stored bytes handshake) s.env (by simp [TlsEvent.dealings]) hjudged).aside _ _ rfl
    h.owns.verifies, ?_⟩
  exact fun b => ⟨fun hsaved => Option.some.inj hsaved, fun hleft _ => congrArg some hleft⟩

theorem keepTicket_spec : Spec (fun s => Rest s ∧ s.own.tls = some tls) (keepTicket esp tls)
    (Ends (fun _ s => Rest s ∧ s.own.tls = some tls) T C) := by
  refine spec_own fun o => ?_
  cases hdue : o.ticketDue with
  | none => exact Spec.ret fun s h => h.1
  | some handshake =>
    rintro s ⟨⟨hrest, htls⟩, rfl⟩
    obtain ⟨hunkept, hresumed⟩ := hrest.due handshake hdue
    have howns : Owns [tls] s := by
      have := hrest.owns
      rwa [htls] at this
    have hcontext : s.own.hasContext = true := by
      by_contra hno
      rw [(hrest.context (Bool.not_eq_true _ ▸ hno)).1] at htls
      cases htls
    have hunsaved : Unsaved tls (offeredLast s.trace) s :=
      ⟨howns, ⟨htls, hcontext⟩, hrest.left, hrest.noSession, rfl, hunkept,
      hrest.socket tls htls⟩
    generalize offeredLast s.trace = offered at hunsaved hresumed
    refine Spec.bind (saveConnSession_spec esp (some handshake) (some handshake)) (fun r => ?_) s
      ⟨hunsaved, hdue ▸ hrest.living, hdue⟩
    cases r with
    | none =>
      refine Spec.ret fun s ⟨h, hliving, hd⟩ => ⟨h.rest (hd ▸ hliving) fun handshake' hd' hr => ?_, h.tls.1⟩
      rw [hd] at hd'
      exact hresumed ((Option.some.inj hd').trans hr)
    | some ticket =>
      refine Spec.bind (R := fun _ s => (Owns [tls] s ∧ SlotLeft s) ∧
        (s.own.tls = some tls ∧ s.own.hasContext = true) ∧ s.own.cfg.clientSession = none ∧
          ownSocket s.trace = some (tls, s.own.sockfd) ∧ Living none s)
        (spec_lockSession esp (fun s env h => ?_) (fun s h => ?_) fun s h => ?_) fun _ => ?_
      · obtain ⟨h, hpending, hd⟩ := h
        exact ⟨⟨h.owns.aside _ _ rfl h.owns.verifies, h.tls, h.left, h.noSession, h.offered, h.unkept, h.socket⟩,
          hpending, hd⟩
      · obtain ⟨h, hpending, hd⟩ := h
        exact ⟨h.forgot, hpending.forgot, hd⟩
      · obtain ⟨h, ⟨name, clocks, session, t, ht, hlives, hsave⟩, -⟩ := h
        refine ⟨h.stored hresumed, h.tls, h.noSession, h.socket, name, ?_⟩
        have hreads := hlives.reads clocks (some session)
        simp only [SessionContext.read, saveSession, Option.bind_some, hsave] at hreads
        exact ht ▸ hreads
      · rintro s ⟨⟨howns, hleft⟩, ⟨htls, hcontext⟩, hsession, hsocket, hliving⟩
        refine ⟨⟨?_, hleft, hliving, hsession, ?_, fun hno => ?_, fun tls' htls' => ?_⟩, htls⟩
        · have hown := howns.aside s.env { s.own with ticketDue := none } rfl howns.verifies
          rw [← Option.toList_some, ← htls] at hown
          exact hown
        · intro handshake hd
          cases hd
        · rw [show s.own.hasContext = false from hno] at hcontext
          cases hcontext
        · cases htls.symm.trans htls'
          exact hsocket

/-- The transport has the connection of a handshake that nothing is kept of yet. -/
def Shaken (tls : TlsObject) (offered : Option (List UInt8)) (s : Rec σ TlsEvent TlsTask) : Prop :=
  Unsaved tls offered s ∧ Living none s ∧ s.own.ticketDue = none

theorem Shaken.aside (h : Shaken tls offered s) : Shaken tls offered { s with env := env } := by
  obtain ⟨h, hliving, hdue⟩ := h
  exact ⟨⟨h.owns.aside _ _ rfl h.owns.verifies, h.tls, h.left, h.noSession, h.offered, h.unkept, h.socket⟩, hliving, hdue⟩

theorem Shaken.forgot (h : Shaken tls offered s) : Shaken tls offered { s with
    env := env, own := { s.own with session := s.own.session.forget }, trace := .forgot :: s.trace } := by
  obtain ⟨h, hliving, hdue⟩ := h
  exact ⟨h.forgot, hliving.forgot, hdue⟩

theorem Shaken.asked (h : Shaken tls offered s) :
    Shaken tls offered { s with env := env, trace := .asked tls :: s.trace } := by
  obtain ⟨h, hliving, hdue⟩ := h
  exact ⟨h.quiet quiet_asked rfl (h.owns.uses _ _ (by simp [TlsEvent.dealings]) trivial), hliving.quiet _ rfl, hdue⟩

theorem Shaken.rest (h : Shaken tls offered s) : Rest s := by
  obtain ⟨h, hliving, hdue⟩ := h
  refine h.rest (hdue ▸ hliving) fun handshake hd => ?_
  rw [hdue] at hd
  cases hd

theorem negotiated_spec (protocol : Option String) : Spec (Shaken tls offered)
    (ifSome protocol fun protocol => lockSession esp (fun session => ((), session.negotiated protocol)) [])
      (Ends (fun _ => Shaken tls offered) T C) := by
  cases protocol with
  | none => exact Spec.ret fun _ h => h
  | some protocol =>
    rw [ifSome_some]
    refine spec_lockSession esp (fun _ _ h => Shaken.aside h) (fun _ h => Shaken.forgot h) fun s h => ?_
    obtain ⟨h, ⟨name, hlives⟩, hdue⟩ := h
    exact ⟨⟨h.owns.aside _ _ rfl h.owns.verifies, h.tls, h.left, h.noSession, h.offered, h.unkept, h.socket⟩,
      ⟨name, hlives⟩, hdue⟩

/-- A handshake of TLS 1.3, whose ticket is yet to come. -/
theorem recorded_spec (peerCert : Bool) : Spec (Shaken tls offered)
    (do
      let handshake : Handshake := if offered.isSome && !peerCert then .resumed else .full
      lockSession esp (fun session => ((), session.record handshake)) [.recorded handshake]
      modifyOwn fun o => { o with ticketDue := some handshake }) (Ends (fun _ => Rest) T C) := by
  have hresumed : (if (offered.isSome && !peerCert) = true then Handshake.resumed else .full) = .resumed →
      offered.isSome = true := by
    cases offered with
    | none => simp
    | some bytes => simp
  generalize hhandshake : (if (offered.isSome && !peerCert) = true then Handshake.resumed else .full) =
    handshake at hresumed
  refine Spec.bind (R := fun _ s => Unsaved tls offered s ∧ Living (some handshake) s)
    (spec_lockSession esp (fun _ _ h => Shaken.aside h) (fun _ h => Shaken.forgot h) fun s h => ?_) fun _ => ?_
  · obtain ⟨h, ⟨name, hlives⟩, -⟩ := h
    have hjudged : (TlsEvent.recorded handshake).Judged s.trace := ⟨h.unkept, fun hr => h.offered.symm ▸ hresumed hr⟩
    refine ⟨⟨?_, h.tls, h.left, h.noSession, h.offered, h.unkept, h.socket⟩, ?_⟩
    · exact (h.owns.uses (.recorded handshake) s.env (by simp [TlsEvent.dealings]) hjudged).aside _ _ rfl h.owns.verifies
    · have hconnects := hlives.connects offered ⟨0, none⟩ (.made (some "TLSv1.3") peerCert none)
      simp only [SessionContext.connected, if_true, hhandshake] at hconnects
      exact ⟨_, hconnects⟩
  · rintro s ⟨h, hliving⟩
    have howns := h.owns.aside s.env { s.own with ticketDue := some handshake } rfl h.owns.verifies
    have hunsaved : Unsaved tls offered { s with own := { s.own with ticketDue := some handshake } } :=
      ⟨howns, h.tls, h.left, h.noSession, h.offered, h.unkept, h.socket⟩
    refine hunsaved.rest hliving fun handshake' hd hr => hresumed ?_
    exact (Option.some.inj hd).trans hr

/-- A handshake of TLS 1.2, which leaves a session at once. -/
theorem stored_spec : Spec (Shaken tls offered)
    (do
      ifSome (← saveConnSession esp tls) fun fresh => do
        let handshake : Handshake := if offered = some fresh then .resumed else .full
        lockSession esp (fun session => ((), session.store fresh handshake)) [.stored fresh handshake])
            (Ends (fun _ => Rest) T C) := by
  refine Spec.bind (saveConnSession_spec esp none none) fun r => ?_
  cases r with
  | none => exact Spec.ret fun s h => Shaken.rest h
  | some fresh =>
    have hresumed : (if offered = some fresh then Handshake.resumed else .full) = .resumed → offered.isSome = true := by
      intro h
      split at h
      · rename_i heq
        rw [heq]
        rfl
      · cases h
    rw [ifSome_some]
    refine spec_lockSession esp (fun s env h => ?_) (fun s h => ?_) fun s h => ?_
    · obtain ⟨h, hpending, hd⟩ := h
      exact ⟨⟨h.owns.aside _ _ rfl h.owns.verifies, h.tls, h.left, h.noSession, h.offered, h.unkept, h.socket⟩,
          hpending, hd⟩
    · obtain ⟨h, hpending, hd⟩ := h
      exact ⟨h.forgot, hpending.forgot, hd⟩
    · obtain ⟨h, ⟨name, clocks, session, t, ht, hlives, hsave⟩, hd⟩ := h
      obtain ⟨howns, hleft⟩ := h.stored hresumed
      refine ⟨?_, hleft, ?_, h.noSession, fun handshake hd' => ?_, fun hno => ?_, fun tls' htls => ?_⟩
      · rw [← Option.toList_some, ← h.tls.1] at howns
        exact howns
      · have hconnects := hlives.connects offered clocks (.made none false (some session))
        simp only [SessionContext.connected, saveSession, Option.bind_some, hsave] at hconnects
        have hliving : Living none { s with
            own := { s.own with session := s.own.session.store fresh (if offered = some fresh then .resumed else .full) },
            trace := .stored fresh (if offered = some fresh then .resumed else .full) :: s.trace } := ⟨name, ht ▸ hconnects⟩
        rw [← hd] at hliving
        exact hliving
      · rw [show s.own.ticketDue = some handshake from hd'] at hd
        cases hd
      · cases h.tls.2.symm.trans hno
      · cases h.tls.1.symm.trans htls
        exact h.socket

theorem keepHandshake_spec : Spec (Shaken tls offered) (keepHandshake esp tls offered) (Ends (fun _ => Rest) T C) := by
  refine Spec.bind (R := fun _ => Shaken tls offered) (spec_call fun _ _ _ h => Shaken.asked h) fun protocol => ?_
  refine Spec.bind (negotiated_spec esp protocol) fun _ => ?_
  refine Spec.ite (fun _ => ?_) fun _ => stored_spec esp
  exact Spec.bind (R := fun _ => Shaken tls offered) (spec_call fun _ _ _ h => Shaken.asked h) fun peerCert =>
    recorded_spec esp peerCert

/-! ### Closing and connecting -/

theorem closeContext_spec : Spec (fun s => Rest s ∧ s.own.hasContext = true) (closeContext (σ := σ))
    (Ends (fun _ => Begun none) T C) := by
  have hclosed : ∀ {s : Rec σ TlsEvent TlsTask}, Rest s ∧ s.own.hasContext = true → s.own.tls = none →
      Begun none { s with own := { s.own with sockfd := -1, ticketDue := none } } := by
    rintro s ⟨h, hcontext⟩ htls
    have howns := h.owns
    rw [htls] at howns
    exact ⟨⟨howns.aside _ _ rfl howns.verifies, h.living.closes, ⟨htls, hcontext⟩, rfl⟩, h.left, h.noSession⟩
  refine Spec.bind (R := fun _ s => Rest s ∧ s.own.hasContext = true) ?_ fun _ => spec_own fun o => ?_
  · exact fun s ⟨h, hcontext⟩ => ⟨⟨h.owns.aside _ _ rfl h.owns.verifies, h.left, h.living, h.noSession, h.due, h.context,
      h.socket⟩, hcontext⟩
  · cases htls : o.tls with
    | none =>
      rintro s ⟨h, rfl⟩
      exact hclosed h htls
    | some tls =>
      rintro s ⟨⟨h, hcontext⟩, rfl⟩
      have howns := h.owns
      rw [htls] at howns
      have hgone := howns.releases (.destroyed tls) s.env rfl trivial
      exact ⟨⟨hgone.aside _ _ rfl howns.verifies, (h.living.quiet _ rfl).closes, ⟨rfl, hcontext⟩, rfl⟩,
        h.left.quiet _ quiet_destroyed, h.noSession⟩

theorem initTls_spec : Spec (Begun none) (initTls esp) (Ends (fun r => Begun r) T C) := by
  refine Spec.bind (R := fun _ => Begun none) ?_ fun made => Spec.ite (fun _ => ?_) fun _ => ?_
  · exact spec_call fun s env _ h => ⟨⟨h.owns.aside _ _ rfl h.owns.verifies, h.living, h.tls, h.due⟩, h.left, h.noSession⟩
  · intro s h
    have hmade := h.owns.makes (.init (some s.own.made)) s.env [] [] (by simp) (by simp) rfl trivial
    exact ⟨⟨hmade, h.living.quiet s.env rfl, h.tls, h.due⟩, h.left.quiet s.env quiet_init, h.noSession⟩
  · intro s h
    have hnone := h.owns.uses (.init none) s.env (by simp [TlsEvent.dealings]) trivial
    exact ⟨⟨hnone, h.living.quiet _ rfl, h.tls, h.due⟩, h.left.quiet _ quiet_init, h.noSession⟩

theorem offered_spec : Spec (Begun (some tls)) (lockSession esp (fun session => (session.saved, session)) [])
    (Ends (fun offered s => Begun (some tls) s ∧ s.own.session.saved = offered) T C) := by
  refine spec_lockSession esp (fun s env h => ?_) (fun s h => h.forgot) fun s h => ?_
  · exact ⟨⟨h.owns.aside _ _ rfl h.owns.verifies, h.living, h.tls, h.due⟩, h.left, h.noSession⟩
  · exact ⟨⟨⟨h.owns.aside _ _ rfl h.owns.verifies, h.living, h.tls, h.due⟩, h.left, h.noSession⟩, rfl⟩

/-- A session that is read back is offered as the slot has it. -/
theorem Living.offers {bytes : List UInt8} (h : Living none s) (hsaved : s.own.session.saved = some bytes) (env : σ)
    (clocks : Clocks) (object : TlsObject) :
    Living none { s with
      env := env, own := { s.own with made := s.own.made + 1 },
      trace := .loaded object clocks bytes (loadSession clocks bytes) :: s.trace } := by
  obtain ⟨name, h⟩ := h
  refine ⟨name, ?_⟩
  cases hload : loadSession clocks bytes with
  | none => exact h
  | some session =>
    have hoffer : SessionContext.offer ⟨{ s.own.session with protocol := name }, none⟩ clocks = some session := by
      rw [SessionContext.offer]
      exact (congrArg (Option.bind · (loadSession clocks)) hsaved).trans hload
    exact h.offers hsaved hoffer

theorem loadOffered_spec : Spec (fun s => Begun (some tls) s ∧ s.own.session.saved = offered) (loadOffered esp offered)
    (Ends (fun loaded s => Offering tls offered loaded s ∧ s.own.cfg.clientSession = none) T C) := by
  cases offered with
  | none =>
    exact Spec.ret fun s ⟨h, hsaved⟩ => ⟨⟨h.toConnecting, h.left, hsaved, rfl⟩, h.noSession⟩
  | some bytes =>
    refine Spec.bind (R := fun _ s => Begun (some tls) s ∧ s.own.session.saved = some bytes) ?_ fun clocks => ?_
    · exact spec_call fun s env _ ⟨h, hsaved⟩ =>
        ⟨⟨⟨h.owns.aside _ _ rfl h.owns.verifies, h.living, h.tls, h.due⟩, h.left, h.noSession⟩, hsaved⟩
    · rintro s ⟨h, hsaved⟩
      have hmade := h.owns.makes (.loaded s.own.made clocks bytes (loadSession clocks bytes)) s.env [] [.use s.own.made]
        (by simp) (by simp) rfl rfl
      have hliving := h.living.offers hsaved s.env clocks s.own.made
      cases hload : loadSession clocks bytes with
      | some session =>
        rw [hload] at hmade hliving
        exact ⟨⟨⟨hmade, hliving, h.tls, h.due⟩, h.left, hsaved, s.own.made, clocks, s.trace,
          Or.inl ⟨session, rfl, rfl⟩⟩, h.noSession⟩
      | none =>
        rw [hload] at hmade hliving
        have hfreed := hmade.releases (.sessionFreed s.own.made) s.env rfl trivial
        exact ⟨⟨⟨hfreed, hliving.quiet _ rfl, h.tls, h.due⟩, h.left, hsaved, s.own.made, clocks, s.trace,
          Or.inr ⟨rfl, rfl⟩⟩,
          h.noSession⟩

theorem openConn_spec {loaded : Option (TlsObject × MbedtlsSession MbedTls.Rest)} (host : CStr) (port : Int) :
    Spec (fun s => Offering tls offered loaded s ∧ s.own.cfg.clientSession = loaded) (openConn esp host port tls offered)
      (Ends (fun n => Tried (loaded.toList.map Prod.fst ++ [tls]) offered n) T C) := by
  refine spec_own fun o => spec_call ?_
  rintro s env n ⟨⟨h, hsession⟩, rfl⟩
  have hjudged : (TlsEvent.connNew tls s.own.cfg offered n).Judged s.trace := by
    refine ⟨h.owns.verifies, fun bytes hoffered => (h.left bytes).1 (h.saved.trans hoffered), fun bytes hleft hne => ?_, ?_⟩
    · exact h.saved.symm.trans ((h.left bytes).2 hleft hne)
    · rw [hsession]
      exact h.presented
  have howns := h.owns.uses (.connNew tls s.own.cfg offered n) env (by
    simp only [TlsEvent.dealings, hsession]
    intro d hd
    rcases List.mem_cons.mp hd with rfl | hd
    · exact ⟨tls, by simp, rfl⟩
    · obtain ⟨p, hp, rfl⟩ := List.mem_map.mp hd
      exact ⟨p.1, List.mem_append_left _ (List.mem_map_of_mem hp), rfl⟩) hjudged
  refine ⟨h.toConnecting.quiet rfl howns, fun hn bytes => ?_, rfl, fun hn => hn⟩
  obtain ⟨hleft, hsaved⟩ := h.left bytes
  cases offered with
  | none => exact ⟨hleft, hsaved⟩
  | some b =>
    rcases hn with hn | hn
    · exact ⟨fun hslot => ⟨hn, hleft hslot⟩, fun hslot => hsaved hslot.2⟩
    · cases hn

/-- After the handshake, with what was offered given back. -/
def Done (tls : TlsObject) (offered : Option (List UInt8)) (n : Int) (s : Rec σ TlsEvent TlsTask) : Prop :=
  Tried [tls] offered n s ∧ s.own.cfg.clientSession = none

theorem freeOffered_spec {loaded : Option (TlsObject × MbedtlsSession MbedTls.Rest)} {n : Int} :
    Spec (fun s => Tried (loaded.toList.map Prod.fst ++ [tls]) offered n s ∧ s.own.cfg.clientSession = none)
      (ifSome (σ := σ) loaded fun (object, _) => freeSession object) (Ends (fun _ => Done tls offered n) T C) := by
  cases loaded with
  | none => exact Spec.ret fun s h => h
  | some p =>
    rintro s ⟨h, hsession⟩
    exact ⟨h.quiet quiet_freed (h.owns.releases (.sessionFreed p.1) s.env rfl trivial), hsession⟩

theorem failed_spec {n : Int} : Spec (Done tls offered n)
    (do
      reportTlsError tls
      destroyTls tls
      when (offered.isSome = true) (lockSession esp (fun session => ((), session.forget)) [.forgot])
      pure (-1)) (Ends (fun _ => Rest) T C) := by
  refine Spec.bind (R := fun _ => Done tls offered n) ?_ fun _ => ?_
  · rintro s ⟨h, hsession⟩
    exact ⟨h.quiet quiet_asked (h.owns.uses (.asked tls) s.env (by simp [TlsEvent.dealings]) trivial), hsession⟩
  refine Spec.bind (R := fun _ s => Tried [] offered n s ∧ s.own.cfg.clientSession = none) ?_ fun _ => ?_
  · rintro s ⟨h, hsession⟩
    exact ⟨h.quiet quiet_destroyed (h.owns.releases (.destroyed tls) s.env rfl trivial), hsession⟩
  refine Spec.bind (R := fun _ => Rest) (Spec.when (fun _ => ?_) fun hnone s ⟨h, hsession⟩ => ?_) fun _ =>
    Spec.ret fun _ h => h
  · refine spec_lockSession esp (P := fun s => Connecting [] s ∧ s.own.cfg.clientSession = none) ?_ ?_ ?_ |>.pre fun s h =>
      ⟨h.1.toConnecting, h.2⟩
    · exact fun s env ⟨h, hsession⟩ => ⟨⟨h.owns.aside _ _ rfl h.owns.verifies, h.living, h.tls, h.due⟩, hsession⟩
    · exact fun s ⟨h, hsession⟩ => ⟨h.forgot, hsession⟩
    · exact fun s ⟨h, hsession⟩ => h.forgot.rest .forgot hsession
  · refine h.toConnecting.rest (h.left (Or.inr ?_)) hsession
    cases offered with
    | none => rfl
    | some bytes => exact absurd rfl hnone

theorem succeeded_spec {n : Int} (hn : 0 < n) : Spec (Done tls offered n)
    (do
      let (err, fd) ← call esp.connSockfd fun r => [.socket tls r.1 r.2]
      modifyOwn fun o => { o with sockfd := fd }
      if err ≠ 0 then do
        destroyTls tls
        pure (-1)
      else do
        modifyOwn fun o => { o with tls := some tls, socket := fd }
        keepHandshake esp tls offered
        pure 0) (Ends (fun _ => Rest) T C) := by
  refine Spec.bind (R := fun r s => Done tls offered n s ∧
    ownSocket s.trace = if r.1 = (0 : Int) then some (tls, r.2) else none)
    (spec_call fun s env r ⟨h, hsession⟩ => ?_) fun (err, fd) => ?_
  · exact ⟨⟨h.quiet quiet_socket (h.owns.uses _ _ (by simp [TlsEvent.dealings]) trivial), hsession⟩, rfl⟩
  refine Spec.bind (R := fun _ s => (Done tls offered n s ∧
    ownSocket s.trace = if err = (0 : Int) then some (tls, fd) else none) ∧
    s.own.sockfd = fd) ?_ fun _ => Spec.ite (fun _ => ?_) fun herr => ?_
  · rintro s ⟨⟨h, hsession⟩, hsocket⟩
    exact ⟨⟨⟨⟨⟨h.owns.aside _ _ rfl h.owns.verifies, h.living, h.tls, h.due⟩, h.left, h.offered, h.unkept⟩, hsession⟩,
      hsocket⟩, rfl⟩
  · rintro s ⟨⟨⟨h, hsession⟩, -⟩, -⟩
    have hgone := h.quiet quiet_destroyed (h.owns.releases (.destroyed tls) s.env rfl trivial)
    exact hgone.toConnecting.rest (hgone.left (Or.inl hn)) hsession
  · refine Spec.bind (R := fun _ => Shaken tls offered) ?_ fun _ => Spec.bind (keepHandshake_spec esp) fun _ =>
      Spec.ret fun _ h => h
    rintro s ⟨⟨⟨h, hsession⟩, hsocket⟩, rfl⟩
    rw [if_pos (not_not.mp herr)] at hsocket
    exact ⟨⟨h.owns.aside _ _ rfl h.owns.verifies, ⟨rfl, h.tls.2⟩, h.left (Or.inl hn), hsession, h.offered,
      h.unkept hn, hsocket⟩,
      h.living, h.due⟩

theorem spec_withContext {P Q : Rec σ TlsEvent TlsTask → Prop} {absent : Int} {m : TlsProg σ Int}
    (hm : Spec (fun s => P s ∧ s.own.hasContext = true) m (Ends (fun _ => Q) T C))
    (habsent : ∀ s, P s → s.own.hasContext = false → Q s) :
    Spec P (withContext absent m) (Ends (fun _ => Q) T C) := by
  refine spec_own fun o => Spec.ite (fun hcontext => hm.pre ?_) fun hcontext => Spec.ret ?_
  · rintro s ⟨h, rfl⟩
    exact ⟨h, hcontext⟩
  · rintro s ⟨h, rfl⟩
    exact habsent s h (Bool.eq_false_iff.mpr hcontext)

theorem tlsConnect_spec (host : CStr) (port timeoutMs : Int) :
    Spec Rest (tlsConnect esp host port timeoutMs) (Ends (fun _ => Rest) T C) := by
  refine spec_withContext (Spec.bind closeContext_spec fun _ => ?_) fun _ h _ => h
  refine Spec.bind (R := fun _ => Begun none) ?_ fun stopping => Spec.ite (fun _ => Spec.ret fun _ h => h.rest) fun _ => ?_
  · exact spec_call fun s env _ h => ⟨⟨h.owns.aside _ _ rfl h.owns.verifies, h.living, h.tls, h.due⟩, h.left, h.noSession⟩
  refine Spec.bind (R := fun _ => Begun none) ?_ fun _ => Spec.bind (initTls_spec esp) fun made => ?_
  · exact fun s h => ⟨⟨h.owns.aside _ _ rfl ⟨h.owns.verifies.1, h.owns.verifies.2, h.owns.verifies.3⟩, h.living,
      h.tls, h.due⟩,
      h.left, h.noSession⟩
  cases made with
  | none => exact Spec.ret fun _ h => h.rest
  | some tls =>
    refine Spec.bind (offered_spec esp) fun offered => Spec.bind (loadOffered_spec esp) fun loaded => ?_
    refine Spec.bind (R := fun _ s => Offering tls offered loaded s ∧ s.own.cfg.clientSession = loaded) ?_ fun _ => ?_
    · rintro s ⟨h, -⟩
      have howns := h.owns.aside s.env { s.own with cfg := { s.own.cfg with clientSession := loaded } } rfl
        ⟨h.owns.verifies.1, h.owns.verifies.2, h.owns.verifies.3⟩
      exact ⟨⟨⟨howns, h.living, h.tls, h.due⟩, h.left, h.saved, h.presented⟩, rfl⟩
    refine Spec.bind (openConn_spec esp host port) fun n => ?_
    refine Spec.bind (R := fun _ s => Tried (loaded.toList.map Prod.fst ++ [tls]) offered n s ∧
      s.own.cfg.clientSession = none)
      ?_ fun _ => ?_
    · intro s h
      have howns := h.owns.aside s.env { s.own with cfg := { s.own.cfg with clientSession := none } } rfl
        ⟨h.owns.verifies.1, h.owns.verifies.2, h.owns.verifies.3⟩
      exact ⟨⟨⟨howns, h.living, h.tls, h.due⟩, h.left, h.offered, h.unkept⟩, rfl⟩
    refine Spec.bind freeOffered_spec fun _ => Spec.ite (fun _ => failed_spec esp) fun hn => ?_
    · exact succeeded_spec esp (Int.not_le.mp hn)

/-! ### Waiting, reading and writing -/

/-- What a wait found, after the record `t`. -/
def Found (direction : Direction) (t : List TlsEvent) (n : Int) (s : Rec σ TlsEvent TlsTask) : Prop :=
  0 < n → ∃ selection k, s.trace = .selected selection k :: t ∧ 0 < k ∧
    (if direction = .read then selection.reads else selection.writes).isSome = true

omit [MbedTls] in
theorem selection_one {words : Nat} {fd : Int} {set : FdSet} (hset : FdSet.add (List.replicate words 0) fd = some set)
    (direction : Direction) (timeout : Option (Nat × Nat)) :
    Selection.One ⟨fd + 1, if direction = .read then some set else none, if direction = .write then some set else none,
      set, timeout⟩ fd ∧
      (if direction = .read then if direction = .read then some set else none
        else if direction = .write then some set else none).isSome = true := by
  obtain ⟨hfd, hcontains⟩ := FdSet.add_zeroed hset
  refine ⟨⟨hfd, rfl, ?_, ?_⟩, ?_⟩
  · cases direction <;> rfl
  · intro set' hset' fd'
    have heq : set' = set := by
      cases direction <;> simpa [eq_comm] using hset'
    rw [heq, hcontains]
  · cases direction <;> rfl

theorem selectOnce_spec {o : TlsTask} {t : List TlsEvent} (htls : o.tls = some tls) (direction : Direction)
    (timeoutMs : Option Nat) :
    Spec (fun s => Rest s ∧ s.own = o ∧ s.trace = t) (selectOnce esp o.sockfd direction timeoutMs)
      (Ends (fun n s => Rest s ∧ s.own = o ∧ Found direction t n s) T C) := by
  cases hset : FdSet.add (List.replicate esp.fdWords 0) o.sockfd with
  | none =>
    simp only [selectOnce, hset]
    refine Spec.ret ?_
    rintro s ⟨h, ho, -⟩
    exact ⟨h, ho, fun hn => absurd hn (by decide)⟩
  | some set =>
    obtain ⟨hone, hsome⟩ := selection_one hset direction (timeoutMs.map fun ms => (ms / 1000, ms % 1000 * 1000))
    simp only [selectOnce, hset]
    refine Spec.bind (R := fun r s => Rest s ∧ s.own = o ∧ Found direction t r.1 s) ?_ fun r =>
        Spec.ite (fun _ => ?_) fun _ =>
      Spec.ret fun _ h => h
    · refine spec_call ?_
      rintro s env ⟨n, failed⟩ ⟨h, ho, ht⟩
      have hsocket : ownSocket s.trace = some (tls, o.sockfd) := ho ▸ h.socket tls (ho ▸ htls)
      refine ⟨h.quiet ⟨rfl, fun _ _ => Iff.rfl, fun _ => Iff.rfl, fun _ => rfl⟩ rfl (by simp [TlsEvent.dealings])
        ⟨tls, o.sockfd, hsocket, hone⟩, ho, fun hn => ?_⟩
      exact ⟨_, n, congrArg _ ht, hn, hsome⟩
    · refine Spec.ret ?_
      rintro s ⟨h, ho, -⟩
      exact ⟨h, ho, fun hn => absurd hn (by decide)⟩

theorem Rest.aside (h : Rest s) (env : σ) : Rest { s with env := env } :=
  ⟨h.owns.aside _ _ rfl h.owns.verifies, h.left, h.living, h.noSession, h.due, h.context, h.socket⟩

theorem tlsWait_spec {o : TlsTask} {t : List TlsEvent} (htls : o.tls = some tls) (direction : Direction) (timeoutMs : Int) :
    Spec (fun s => Rest s ∧ s.own = o ∧ s.trace = t) (tlsWait esp o.sockfd direction timeoutMs)
      (Ends (fun n s => Rest s ∧ s.own = o ∧ Found direction t n s) T C) := by
  have hzero : ∀ s : Rec σ TlsEvent TlsTask, Rest s ∧ s.own = o → Rest s ∧ s.own = o ∧ Found direction t 0 s :=
    fun s h => ⟨h.1, h.2, fun hn => absurd hn (by decide)⟩
  refine Spec.bind (R := fun _ s => Rest s ∧ s.own = o ∧ s.trace = t) ?_ fun stopping => Spec.ite (fun _ => ?_) fun _ => ?_
  · exact spec_call fun s env _ h => ⟨h.1.aside env, h.2.1, h.2.2⟩
  · exact Spec.ret fun s h => hzero s ⟨h.1, h.2.1⟩
  refine Spec.bind (selectOnce_spec esp htls direction _) fun n => ?_
  refine Spec.bind (R := fun _ s => Rest s ∧ s.own = o ∧ Found direction t n s) ?_ fun stopping =>
    Spec.ite (fun _ => ?_) fun _ => ?_
  · exact spec_call fun s env _ h => ⟨h.1.aside env, h.2.1, h.2.2⟩
  · exact Spec.ret fun s h => hzero s ⟨h.1, h.2.1⟩
  · exact Spec.ret fun _ h => h

theorem pollRead_spec (timeoutMs : Int) : Spec Rest (pollRead esp timeoutMs)
    (Ends (fun n s => Rest s ∧ (0 < n → ∀ tls, s.own.tls = some tls → Readable tls s.trace)) T C) := by
  refine spec_own fun o => ?_
  cases htls : o.tls with
  | none => exact Spec.ret fun s h => ⟨h.1, fun hn => absurd hn (by decide)⟩
  | some tls =>
    have havail : ∀ n, Spec (fun s => (Rest s ∧ s.own = o) ∧ s.trace.head? = some (.avail tls n))
      (tlsWait esp o.sockfd .read timeoutMs)
        (Ends (fun n s => Rest s ∧ (0 < n → ∀ tls, s.own.tls = some tls → Readable tls s.trace)) T C) := by
      rintro n s ⟨⟨h, ho⟩, hhead⟩
      obtain ⟨t, ht⟩ := List.head?_eq_some_iff.mp hhead
      refine (tlsWait_spec esp htls .read timeoutMs s ⟨h, ho, rfl⟩).mono ?_ (fun _ h => h) fun _ h => h
      rintro k s' ⟨h', ho', hfound⟩
      refine ⟨h', fun hk tls' htls' => ?_⟩
      obtain ⟨selection, j, htrace, hj, hreads⟩ := hfound hk
      rw [ho', htls] at htls'
      rw [htrace, ht]
      exact ⟨Option.some.inj htls', hreads, hj⟩
    refine Spec.bind (R := fun n s => (Rest s ∧ s.own = o) ∧ s.trace.head? = some (.avail tls n)) ?_ fun n =>
      Spec.ite (fun hn => ?_) fun _ => havail n
    · refine spec_call ?_
      rintro s env n ⟨h, rfl⟩
      exact ⟨⟨h.quiet ⟨rfl, fun _ _ => Iff.rfl, fun _ => Iff.rfl, fun _ => rfl⟩ rfl
        (by simp [TlsEvent.dealings, htls]) trivial, rfl⟩, rfl⟩
    · refine Spec.ret ?_
      rintro s ⟨⟨h, rfl⟩, hhead⟩
      obtain ⟨t, ht⟩ := List.head?_eq_some_iff.mp hhead
      refine ⟨h, fun _ tls' htls' => ?_⟩
      rw [htls] at htls'
      rw [ht]
      exact ⟨Option.some.inj htls', hn⟩

theorem pollWrite_spec (timeoutMs : Int) : Spec Rest (pollWrite esp timeoutMs)
    (Ends (fun n s => Rest s ∧ (0 < n → ∃ t, Found .write t n s)) T C) := by
  refine spec_own fun o => ?_
  cases htls : o.tls with
  | none => exact Spec.ret fun s h => ⟨h.1, fun hn => absurd hn (by decide)⟩
  | some tls =>
    rintro s ⟨h, ho⟩
    refine (tlsWait_spec esp htls .write timeoutMs s ⟨h, ho, rfl⟩).mono ?_ (fun _ h => h) fun _ h => h
    exact fun n s' h' => ⟨h'.1, fun _ => ⟨_, h'.2.2⟩⟩

/-- What the connection is asked for between two callbacks. -/
theorem Rest.uses (h : Rest s) (htls : s.own.tls = some tls) (hq : e.Quiet)
    (hsocket : ownSocket (e :: s.trace) = ownSocket s.trace)
    (he : e.dealings = [.use tls]) (hj : e.Judged s.trace) : Rest { s with env := env, trace := e :: s.trace } :=
  h.quiet hq hsocket (by simp [he, htls]) hj

theorem tlsRead_spec (len : Nat) (timeoutMs : Int) : Spec Rest (tlsRead esp len timeoutMs) (Ends (fun _ => Rest) T C) := by
  refine spec_withContext ((Spec.bind (pollRead_spec esp timeoutMs) fun ready => ?_).pre fun _ h => h.1) fun _ h _ => h
  refine Spec.ite (fun _ => Spec.ret fun _ h => h.1) fun hneg => Spec.ite (fun _ => Spec.ret fun _ h => h.1) fun hzero => ?_
  have hready : 0 < ready := by omega
  refine spec_own fun o => ?_
  cases htls : o.tls with
  | none => exact Spec.ret fun _ h => h.1.1
  | some tls =>
    refine Spec.bind (R := fun _ s => Rest s ∧ s.own.tls = some tls) ?_ fun n => Spec.bind (keepTicket_spec esp) fun _ => ?_
    · refine spec_call ?_
      rintro s env n ⟨⟨h, hreadable⟩, rfl⟩
      have hjudged : (TlsEvent.read tls n).Judged s.trace := ⟨⟨_, h.socket tls htls⟩, hreadable hready tls htls⟩
      exact ⟨h.uses htls ⟨rfl, fun _ _ => Iff.rfl, fun _ => Iff.rfl, fun _ => rfl⟩ rfl rfl hjudged, htls⟩
    refine Spec.ite (fun _ => Spec.ret fun _ h => h.1) fun _ => Spec.ite (fun _ => ?_) fun _ => ?_
    · refine Spec.bind (R := fun _ => Rest) ?_ fun _ => Spec.ret fun _ h => h
      exact fun s ⟨h, htls⟩ => h.uses htls quiet_asked rfl rfl trivial
    · exact Spec.ite (fun _ => Spec.ret fun _ h => h.1) fun _ => Spec.ret fun _ h => h.1

theorem tlsWrite_spec (bytes : List UInt8) (timeoutMs : Int) :
    Spec Rest (tlsWrite esp bytes timeoutMs) (Ends (fun _ => Rest) T C) := by
  refine spec_withContext ((Spec.bind (pollWrite_spec esp timeoutMs) fun ready => ?_).pre fun _ h => h.1) fun _ h _ => h
  refine Spec.ite (fun _ => Spec.ret fun _ h => h.1) fun hready => spec_own fun o => ?_
  cases htls : o.tls with
  | none => exact Spec.ret fun _ h => h.1.1
  | some tls =>
    refine Spec.bind (R := fun _ s => Rest s ∧ s.own.tls = some tls) ?_ fun n => ?_
    · refine spec_call ?_
      rintro s env n ⟨⟨h, hfound⟩, rfl⟩
      obtain ⟨t, hfound⟩ := hfound (Int.not_le.mp hready)
      obtain ⟨selection, k, htrace, hk, hwrites⟩ := hfound (Int.not_le.mp hready)
      have hjudged : (TlsEvent.wrote tls n).Judged s.trace := ⟨⟨_, h.socket tls htls⟩, selection, k, t, htrace, hwrites, hk⟩
      exact ⟨h.uses htls ⟨rfl, fun _ _ => Iff.rfl, fun _ => Iff.rfl, fun _ => rfl⟩ rfl rfl hjudged, htls⟩
    refine Spec.bind (R := fun _ => Rest) (Spec.when (fun _ => ?_) fun _ _ h => h.1) fun _ => Spec.ret fun _ h => h
    exact fun s ⟨h, htls⟩ => h.uses htls quiet_asked rfl rfl trivial

/-! ### The life of a device -/

/-- Between two transports there is nothing. -/
def Bare (s : Rec σ TlsEvent TlsTask) : Prop := Rest s ∧ s.own.tls = none ∧ s.own.ticketDue = none

theorem tlsClose_spec : Spec Rest (tlsClose (σ := σ)) (Ends (fun _ => Rest) T C) :=
  spec_withContext (Spec.bind closeContext_spec fun _ => Spec.ret fun _ h => h.rest) fun _ h _ => h

theorem tlsDestroy_spec : Spec Rest (tlsDestroy (σ := σ)) (Ends (fun _ => Bare) T C) := by
  refine spec_withContext (Spec.bind closeContext_spec fun _ => ?_) fun s h hcontext => ⟨h, h.context hcontext⟩
  refine Spec.bind (R := fun _ => Bare) ?_ fun _ => Spec.ret fun _ h => h
  intro s h
  have hrest := h.rest
  exact ⟨⟨hrest.owns.aside _ _ rfl hrest.owns.verifies, hrest.left, hrest.living, hrest.noSession, hrest.due, fun _ =>
    ⟨h.tls.1, h.due⟩,
    hrest.socket⟩, h.tls.1, h.due⟩

/-- One case for each callback. -/
theorem callback_spec (c : TlsCall) : Spec Rest (callback esp c) (Ends (fun _ => Rest) T C) := by
  cases c with
  | connect host port timeoutMs => exact tlsConnect_spec esp host port timeoutMs
  | read len timeoutMs => exact tlsRead_spec esp len timeoutMs
  | write bytes timeoutMs => exact tlsWrite_spec esp bytes timeoutMs
  | pollRead timeoutMs =>
    exact spec_withContext ((pollRead_spec esp timeoutMs).conseq (fun _ h => h.1) fun _ _ h =>
      h.mono (fun _ _ h => h.1) (fun _ h => h) fun _ h => h)
      fun _ h _ => h
  | pollWrite timeoutMs =>
    exact spec_withContext ((pollWrite_spec esp timeoutMs).conseq (fun _ h => h.1) fun _ _ h =>
      h.mono (fun _ _ h => h.1) (fun _ h => h) fun _ h => h)
      fun _ h _ => h
  | close => exact tlsClose_spec
  | destroy => exact tlsDestroy_spec.mono (fun _ _ h => h.1) (fun _ h => h) fun _ h => h

omit [MbedTls] in
theorem pem_length {text text' : CStr} {n : Nat} (h : pem text' = (text, n)) : n = text.bytes.length + 1 := by
  cases h
  simp [CStr.toBytesWithNul]

theorem baseConfig_verifies (settings : TlsSettings) : (baseConfig settings).Verifies := by
  refine ⟨?_, ?_, ?_⟩
  · simp [baseConfig]
  · simp [baseConfig]
  · rintro text n (h | h | h)
    · obtain ⟨ca, -, hpem⟩ := Option.map_eq_some_iff.mp h
      exact pem_length hpem
    · obtain ⟨certificate, -, hpem⟩ := Option.map_eq_some_iff.mp h
      exact pem_length hpem
    · obtain ⟨key, -, hpem⟩ := Option.map_eq_some_iff.mp h
      exact pem_length hpem

theorem transportLife_spec (settings : TlsSettings) (calls : List TlsCall) :
    Spec Bare (transportLife esp settings calls) (Ends (fun _ => Bare) T C) := by
  refine Spec.bind (R := fun _ => Rest) ?_ fun _ => ?_
  · rintro s ⟨h, htls, -⟩
    have howns := h.owns
    rw [htls] at howns
    refine ⟨howns.aside _ _ rfl (baseConfig_verifies settings), h.left, h.living.closes, rfl, fun handshake hd =>
      ?_, fun hno => ?_,
      fun tls htls => ?_⟩
    · cases hd
    · cases hno
    · cases htls
  refine Spec.bind (Spec.forM (fun c => ?_) calls) fun _ => Spec.bind tlsDestroy_spec fun _ => Spec.ret fun _ h => h
  exact Spec.bind (callback_spec esp c) fun _ => Spec.ret fun _ h => h

omit [MbedTls] in
theorem saved_restore {bytes : List UInt8} (hne : bytes ≠ []) : (TlsSession.restore bytes).saved = some bytes := by
  rw [TlsSession.restore, if_neg (by simpa using hne)]

omit [MbedTls] in
/-- A session is kept through a sleep, unless it is empty. -/
theorem saved_kept {kept : Option (List UInt8)} {bytes : List UInt8}
    (h : (TlsSession.restore (kept.getD [])).saved = some bytes) :
    kept = some bytes := by
  have hkept : bytes = kept.getD [] := saved_wake h
  cases kept with
  | none => cases h
  | some kept => exact congrArg some hkept.symm

theorem bootLife_spec (boot : TlsBoot) : Spec Bare (bootLife esp boot) (Ends (fun _ => Bare) T C) := by
  obtain ⟨handed, transports⟩ := boot
  have htransports : Spec Bare (transports.forM fun p => transportLife esp p.1 p.2) (Ends (fun _ => Bare) T C) :=
    Spec.forM (fun p => transportLife_spec esp p.1 p.2) transports
  cases handed with
  | some bytes =>
    refine Spec.bind (R := fun _ => Bare) ?_ fun _ => htransports
    rintro s ⟨h, htls, hdue⟩
    obtain ⟨name, hlives⟩ := h.living
    have howns := h.owns.uses (.restored bytes) s.env (by simp [TlsEvent.dealings]) trivial
    refine ⟨⟨howns.aside _ _ rfl h.owns.verifies, fun b => ⟨fun hsaved => (saved_wake hsaved).symm, ?_⟩, ?_, h.noSession,
      fun handshake hd => ?_, h.context, h.socket⟩, htls, hdue⟩
    · rintro rfl hne
      exact saved_restore hne
    · have hliving : Living none { s with
          own := { s.own with session := .restore bytes }, trace := .restored bytes :: s.trace } :=
        ⟨(TlsSession.restore bytes).protocol, hlives.boots bytes⟩
      rw [← hdue] at hliving
      exact hliving
    · rw [show s.own.ticketDue = some handshake from hd] at hdue
      cases hdue
  | none =>
    refine Spec.bind (R := fun _ => Bare) ?_ fun _ => htransports
    rintro s ⟨h, htls, hdue⟩
    obtain ⟨name, hlives⟩ := h.living
    refine ⟨⟨h.owns.aside _ _ rfl h.owns.verifies, fun b =>
      ⟨fun hsaved => (h.left b).1 (saved_kept hsaved), fun hleft hne => ?_⟩, ?_,
      h.noSession, h.due, h.context, h.socket⟩, htls, hdue⟩
    · show (TlsSession.restore (s.own.session.saved.getD [])).saved = some b
      rw [(h.left b).2 hleft hne]
      exact saved_restore hne
    have hliving : Living none { s with own := { s.own with session := .restore (s.own.session.saved.getD []) } } :=
      ⟨(TlsSession.restore (s.own.session.saved.getD [])).protocol, hlives.sleeps⟩
    rw [← hdue] at hliving
    exact hliving

theorem deviceLife_spec (boots : List TlsBoot) : Spec Bare (deviceLife esp boots) (Ends (fun _ => Bare) T C) :=
  Spec.forM (bootLife_spec esp) boots

theorem bare_start (env : σ) (gas : Nat) : Bare ⟨env, .new, [], gas⟩ := by
  have howns : Owns [] (⟨env, .new, [], gas⟩ : Rec σ TlsEvent TlsTask) :=
    ⟨⟨.empty, rfl, rfl, rfl⟩, by simp, throughout_nil, baseConfig_verifies _⟩
  refine ⟨⟨howns, fun bytes => ⟨nofun, nofun⟩, ⟨none, .new⟩, rfl, fun handshake hd => ?_, fun _ =>
    ⟨rfl, rfl⟩, fun tls htls => ?_⟩,
    rfl, rfl⟩
  · cases hd
  · cases htls

theorem deviceLife_bare (boots : List TlsBoot) (env : σ) (gas : Nat) :
    Bare (deviceLife esp boots ⟨env, .new, [], gas⟩).2 := by
  have h := deviceLife_spec (T := fun _ => False) (C := fun _ => False) esp boots ⟨env, .new, [], gas⟩ (bare_start env gas)
  rcases ho : (deviceLife esp boots ⟨env, .new, [], gas⟩).1 with a | e | _ <;> rw [ho] at h
  · exact h
  · exact h.elim
  · exact h.elim

/-- Whatever is called in whatever order, over any transports and boots: nothing of esp-tls's is used before it is made or
    after it is given back, and everything is given back once. -/
theorem callbacks_release (boots : List TlsBoot) (env : σ) (gas : Nat) :
    ∃ x, after TlsEvent.dealings (deviceLife esp boots ⟨env, .new, [], gas⟩).2.trace = some x ∧
      ∀ h, makes TlsEvent.dealings h (deviceLife esp boots ⟨env, .new, [], gas⟩).2.trace =
        releases TlsEvent.dealings h (deviceLife esp boots ⟨env, .new, [], gas⟩).2.trace := by
  obtain ⟨hrest, htls, -⟩ := deviceLife_bare esp boots env gas
  obtain ⟨x, hx, hlive, -⟩ := hrest.owns.heap
  refine ⟨x, hx, fun h => ?_⟩
  rw [makes_eq hx, hlive, htls]
  rfl

/-- Every handshake verifies the server, and offers just what the slot was left since it was last forgotten or failed.
    `select` is asked about the connection's own socket, and what is read or written was ready. A session is stored once for
    a handshake, and is resumed only if one was offered. -/
theorem callbacks_judged (boots : List TlsBoot) (env : σ) (gas : Nat) :
    Throughout TlsEvent.Judged (deviceLife esp boots ⟨env, .new, [], gas⟩).2.trace :=
  (deviceLife_bare esp boots env gas).1.owns.judged

end

/-! ### On the bench -/

/-- An mbedTLS whose dates fit in a byte. -/
@[reducible] def benchTls : MbedTls where
  Rest := Unit
  save s := if 0 ≤ s.ticketReceptionTime.toInt ∧ s.ticketReceptionTime.toInt < 256 then
      some ((if s.tlsVersion = .tls13 then 1 else 0) :: (if s.ticket.isSome then 1 else 0) ::
        UInt8.ofNat s.ticketReceptionTime.toInt.toNat :: s.ticket.getD [])
    else none
  load
    | version :: ticket :: date :: rest =>
      some ⟨if version = 1 then .tls13 else .unknown, if ticket = 1 then some rest else none, Int64.ofNat date.toNat, ()⟩
    | _ => none
  hasTicket := by
    intro s bytes s' hsave hload
    split at hsave
    · cases hsave
      cases hload
      unfold MbedtlsSession.HasTicket
      obtain ⟨version, ticket, date, rest⟩ := s
      cases version <;> cases ticket <;> simp
    · cases hsave
  date := by
    intro s bytes s' hsave hload _
    split at hsave
    · rename_i hfits
      cases hsave
      cases hload
      obtain ⟨n, hn⟩ := Int.eq_ofNat_of_zero_le hfits.1
      have hlt : n < 256 := by omega
      rw [← Int64.toInt_inj, hn, Int.toNat_natCast]
      change (Int64.ofNat (UInt8.ofNat n).toNat).toInt = n
      rw [UInt8.toNat_ofNat', Nat.mod_eq_of_lt hlt, Int64.toInt_ofNat_of_lt (by omega)]
    · cases hsave

/-- A connection with TLS 1.3 that has its ticket by the first read. -/
def benchEspTls : @EspTls benchTls Nat :=
  letI := benchTls
  { init n := (true, n)
    connNewSync _ _ _ n := (1, n)
    connSockfd n := ((0, 54), n)
    version n := (some "TLSv1.3", n)
    peerCert n := (false, n)
    clientSession n := (some ⟨.tls13, some [7], 41, ()⟩, n)
    connRead len n := (len, n)
    connWrite bytes n := (bytes.length, n)
    bytesAvail n := (0, n)
    select _ n := ((1, List.replicate 2 0), n)
    clocks n := (⟨45, some 100⟩, n)
    stopping n := (false, n)
    forgotten n := (false, n)
    fdWords := 2
    errConnectionFailed := -2
    errConnectionTimeout := 0
    errClosedByFin := -1
    errWantRead := -26880
    errSslTimeout := -26624 }

def benchBoots : List TlsBoot :=
  [⟨none, [(⟨none, none, .any⟩, [.connect ⟨[104], by decide⟩ 443 10000, .read 5 1000])]⟩,
    ⟨none, [(⟨none, none, .any⟩, [.connect ⟨[104], by decide⟩ 443 10000])]⟩]

section
attribute [local instance] benchTls

/-- What is recorded of a ticket that is read in the one boot, and that the next one resumes from. -/
def benchLife : List TlsEvent := (deviceLife benchEspTls benchBoots ⟨0, .new, [], 0⟩).2.trace

example : (deviceLife benchEspTls benchBoots ⟨0, .new, [], 0⟩).2.own.session =
    ⟨some [1, 1, 96, 7], some .resumed, some "TLSv1.3"⟩ := by
  decide +kernel

theorem callbacks_release_bench : makes TlsEvent.dealings 2 benchLife = 1 ∧
    ∃ x, after TlsEvent.dealings benchLife = some x ∧
    ∀ h, makes TlsEvent.dealings h benchLife = releases TlsEvent.dealings h benchLife :=
  ⟨by decide +kernel, callbacks_release benchEspTls benchBoots 0 0⟩

theorem callbacks_judged_bench : offeredLast benchLife = some [1, 1, 96, 7] ∧ Throughout TlsEvent.Judged benchLife :=
  ⟨by decide +kernel, callbacks_judged benchEspTls benchBoots 0 0⟩

end

end NervesHub
