import NervesHubLink.Lib.Trace
import NervesHubLink.TlsSession

/-! How old a ticket of TLS 1.3 is when it is offered. Its date goes from mbedTLS's clock of one boot to the wall
clock and from there to mbedTLS's clock of another boot, and its age with it. -/

namespace NervesHub
open Trace

/-! ### A date that is moved -/

section
variable {date fromNow toNow : Int64}

/-- The date as on exact clocks, but for an age and a date that saturate. -/
theorem toInt_rebase : (rebase date fromNow toNow).toInt =
    max (-2 ^ 63) (toNow.toInt - min (2 ^ 63 - 1) (Clock.age fromNow.toInt date.toInt)) := by
  have hupper := toNow.toInt_lt
  have hzero : (0 : Int64).toInt = 0 := rfl
  rw [rebase, Int64.toInt_saturatingSub, Int64.toInt_max, Int64.toInt_saturatingSub, hzero, Clock.age]
  omega

theorem rebase_le : rebase date fromNow toNow ≤ toNow := by
  have hlower := toNow.le_toInt
  have hage : 0 ≤ Clock.age fromNow.toInt date.toInt := Clock.age_nonneg
  rw [Int64.le_iff_toInt_le, toInt_rebase]
  omega

theorem toInt_rebase_of_fits (hage : Clock.age fromNow.toInt date.toInt < 2 ^ 63)
    (hdate : -2 ^ 63 ≤ Clock.moved date.toInt fromNow.toInt toNow.toInt) :
    (rebase date fromNow toNow).toInt = Clock.moved date.toInt fromNow.toInt toNow.toInt := by
  rw [toInt_rebase]
  unfold Clock.moved at hdate ⊢
  omega

end

/-- A time within 2^60 of zero. -/
def Near (time : Int64) : Prop := -2 ^ 60 ≤ time.toInt ∧ time.toInt ≤ 2 ^ 60

instance (time : Int64) : Decidable (Near time) := inferInstanceAs (Decidable (_ ∧ _))

section
variable {t b w w' b' : Int64}

theorem Near.age_le (hb : Near b) (ht : Near t) : Clock.age b.toInt t.toInt ≤ 2 ^ 61 := by
  obtain ⟨-, hb⟩ := hb
  obtain ⟨ht, -⟩ := ht
  unfold Clock.age
  omega

/-- A date that was saved: nothing saturates. -/
theorem Near.saved (ht : Near t) (hb : Near b) (hw : Near w) :
    (rebase t b w).toInt = Clock.moved t.toInt b.toInt w.toInt := by
  have hage := hb.age_le ht
  obtain ⟨hw, -⟩ := hw
  refine toInt_rebase_of_fits (by omega) ?_
  unfold Clock.moved
  omega

/-- A date that was saved and is offered: nothing saturates either. -/
theorem Near.offered (ht : Near t) (hb : Near b) (hw : Near w) (hw' : Near w') (hb' : Near b') :
    (rebase (rebase t b w) w' b').toInt =
      Clock.moved (Clock.moved t.toInt b.toInt w.toInt) w'.toInt b'.toInt := by
  have hage := hb.age_le ht
  have hsaved := Near.saved ht hb hw
  obtain ⟨hw, -⟩ := hw
  obtain ⟨-, hw'⟩ := hw'
  obtain ⟨hb', -⟩ := hb'
  have hpast : Clock.age w'.toInt (Clock.moved t.toInt b.toInt w.toInt) ≤ 2 ^ 61 + 2 ^ 61 := by
    rw [Clock.age_moved]
    omega
  rw [← hsaved] at hpast ⊢
  refine toInt_rebase_of_fits (by omega) ?_
  unfold Clock.moved
  omega

/-- The age that a ticket had when it was saved, and what the wall clock went on, if it is not past zero by then. -/
theorem age_rebased (ht : Near t) (hb : Near b) (hw : Near w) (hw' : Near w') (hb' : Near b') :
    b'.toInt - (rebase (rebase t b w) w' b').toInt =
      max 0 (max 0 (b.toInt - t.toInt) + (w'.toInt - w.toInt)) := by
  rw [Near.offered ht hb hw hw' hb']
  exact Clock.sub_moved_moved

end

/-- A date that is moved is never later than the clock it is moved to. Of a ticket taken at `t` on the clock of one
    boot, saved when that read `b` and the wall clock `w`, and offered when the wall clock reads `w'` and the clock of
    another boot `b'`, mbedTLS sees the age it had, and how far the wall clock went on. -/
theorem ticket_keeps_age :
    (∀ time fromNow toNow : Int64, rebase time fromNow toNow ≤ toNow) ∧
      ∀ t b w w' b' : Int64, Near t → Near b → Near w → Near w' → Near b' →
        (b' - rebase (rebase t b w) w' b').toInt = b'.toInt - (rebase (rebase t b w) w' b').toInt ∧
          b'.toInt - (rebase (rebase t b w) w' b').toInt =
            max 0 (max 0 (b.toInt - t.toInt) + (w'.toInt - w.toInt)) := by
  refine ⟨fun time fromNow toNow => rebase_le, ?_⟩
  intro t b w w' b' ht hb hw hw' hb'
  have hage := age_rebased ht hb hw hw' hb'
  refine ⟨?_, hage⟩
  -- The difference fits in 64 bits, so mbedTLS computes it as it is.
  obtain ⟨ht, -⟩ := ht
  obtain ⟨-, hb⟩ := hb
  obtain ⟨hw, -⟩ := hw
  obtain ⟨-, hw'⟩ := hw'
  rw [Int64.toInt_sub]
  refine Int.bmod_eq_of_le ?_ ?_
  · omega
  · omega

/-- Taken 41 s after a boot, saved 4 s later, slept on for ten minutes, and offered 15 s after the next boot. -/
theorem ticket_keeps_age_asleep :
    (15000 - rebase (rebase 41000 45000 1791324000000) 1791324611000 15000).toInt = 615000 := by
  obtain ⟨hmachine, hage⟩ := ticket_keeps_age.2 41000 45000 1791324000000 1791324611000 15000 (by decide) (by decide)
    (by decide) (by decide) (by decide)
  rw [hmachine, hage]
  decide

/-! ### A session that is saved and offered -/

section
variable {R : Type} {clocks : Clocks} {session : MbedtlsSession R} {clock : TicketClock}

end

section
variable [MbedTls] {saving offering clocks : Clocks} {given offered : MbedtlsSession MbedTls.Rest} {bytes : List UInt8}

theorem saveSession_eq {session : Option (MbedtlsSession MbedTls.Rest)} (h : saveSession saving session = some bytes) :
    ∃ given, session = some given ∧ MbedTls.save (redateTicket saving given .wall) = some bytes :=
  Option.bind_eq_some_iff.mp h

end

/-! ### Over the life of a device -/

section
variable [MbedTls]

/-- What happens to the session: bytes are handed in, esp-tls gives a session, one is offered. -/
inductive TicketEvent where
  | restored (bytes : List UInt8)
  | gave (clocks : Clocks) (session : MbedtlsSession MbedTls.Rest)
  | offered (clocks : Clocks) (bytes : List UInt8) (session : MbedtlsSession MbedTls.Rest)

def TlsConnected.session? {R : Type} : TlsConnected R → Option (MbedtlsSession R)
  | .made _ _ session => session
  | _ => none

def TicketEvent.gives (clocks : Clocks) (session : Option (MbedtlsSession MbedTls.Rest)) : List TicketEvent :=
  (session.map (TicketEvent.gave clocks)).toList

/-- A device connects, reads, closes, sleeps and boots, in any order and with any readings of its clocks. The newest
    event comes first. -/
inductive Lives : SessionContext → List TicketEvent → Prop
  | new : Lives ⟨.new, none⟩ []
  | offers {ctx : SessionContext} {t : List TicketEvent} {clocks : Clocks} {bytes : List UInt8}
      {session : MbedtlsSession MbedTls.Rest} : Lives ctx t → ctx.session.saved = some bytes →
      ctx.offer clocks = some session → Lives ctx (.offered clocks bytes session :: t)
  | connects {ctx : SessionContext} {t : List TicketEvent} (offered : Option (List UInt8)) (clocks : Clocks)
      (outcome : TlsConnected MbedTls.Rest) : Lives ctx t →
      Lives (ctx.connected offered clocks outcome) (TicketEvent.gives clocks outcome.session? ++ t)
  | reads {ctx : SessionContext} {t : List TicketEvent} (clocks : Clocks) (session : Option (MbedtlsSession MbedTls.Rest)) :
      Lives ctx t → Lives (ctx.read clocks session) (TicketEvent.gives clocks session ++ t)
  | closes {ctx : SessionContext} {t : List TicketEvent} : Lives ctx t → Lives ctx.close t
  | forgets {ctx : SessionContext} {t : List TicketEvent} : Lives ctx t → Lives { ctx with session := ctx.session.forget } t
  /-- A sleep through which the session is kept. -/
  | sleeps {ctx : SessionContext} {t : List TicketEvent} : Lives ctx t →
      Lives (SessionContext.wake (ctx.session.saved.getD [])) t
  /-- A boot with any other bytes. -/
  | boots {ctx : SessionContext} {t : List TicketEvent} (bytes : List UInt8) : Lives ctx t →
      Lives (SessionContext.wake bytes) (.restored bytes :: t)

/-- The bytes were handed in, or a session was saved as them. -/
def Origin (bytes : List UInt8) (t : List TicketEvent) : Prop :=
  .restored bytes ∈ t ∨
    ∃ clocks session, .gave clocks session ∈ t ∧ MbedTls.save (redateTicket clocks session .wall) = some bytes

variable {ctx : SessionContext} {t more : List TicketEvent} {bytes : List UInt8} {clocks : Clocks}

theorem Origin.add (h : Origin bytes t) : Origin bytes (more ++ t) := by
  rcases h with h | ⟨clocks, session, h, hsave⟩
  · exact .inl (List.mem_append_right _ h)
  · exact .inr ⟨clocks, session, List.mem_append_right _ h, hsave⟩

theorem Origin.given {session : Option (MbedtlsSession MbedTls.Rest)} (h : saveSession clocks session = some bytes) :
    Origin bytes (TicketEvent.gives clocks session ++ t) := by
  obtain ⟨given, rfl, hsave⟩ := saveSession_eq h
  exact .inr ⟨clocks, given, List.mem_append_left _ List.mem_cons_self, hsave⟩

omit [MbedTls] in
theorem saved_wake {kept : List UInt8} (h : (SessionContext.wake kept).session.saved = some bytes) : bytes = kept := by
  simp only [SessionContext.wake, TlsSession.restore] at h
  split at h
  · cases h
  · exact (Option.some.inj h).symm

end

end NervesHub
