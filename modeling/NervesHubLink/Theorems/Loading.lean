import NervesHubLink.Identity

/-! Callers of `load` that run at the same time: they are all given the same credentials, which one of them has read. -/

namespace NervesHub.Identity
open Threads Thread

section
variable {ι σ : Type} [DecidableEq ι]

/-- What one caller did, the latest first. -/
def own (i : ι) (trace : List (ι × LoadEvent)) :
    List LoadEvent := trace.filterMap fun e => if e.1 = i then some e.2 else none

/-- How a call ended, and what it did from its first step to its last. -/
inductive Course : Except Error Credentials → List LoadEvent → Prop
  | found (c : Credentials) : Course (.ok c) [.looked (some c)]
  | noPartition (e : String) :
      Course (.error (.identity s!"could not open the 'certs' partition: {e}")) [.took (.error e), .looked none]
  | noNamespace (e : String) :
      Course (.error (.identity s!"could not open namespace 'nerves_hub': {e}"))
        [.opened (.error e), .took (.ok ()), .looked none]
  | noCertificate {r : BlobRead} {e : Error} (hr : blobOf "device.crt" r = .error e) :
      Course (.error e) [.dropped, .read "device.crt" r, .opened (.ok ()), .took (.ok ()), .looked none]
  | noKey {r q : BlobRead} {certificate : List UInt8} {e : Error} (hr : blobOf "device.crt" r = .ok certificate)
      (hq : blobOf "device.key" q = .error e) :
      Course (.error e) [.dropped, .read "device.key" q, .read "device.crt" r, .opened (.ok ()),
        .took (.ok ()), .looked none]
  | badCertificate {r q : BlobRead} {certificate privateKey : List UInt8} {e : Error}
      (hr : blobOf "device.crt" r = .ok certificate)
      (hq : blobOf "device.key" q = .ok privateKey) (he : leakPem certificate "certificate" = .error e) :
      Course (.error e) [.dropped, .read "device.key" q, .read "device.crt" r, .opened (.ok ()),
        .took (.ok ()), .looked none]
  | badKey {r q : BlobRead} {certificate privateKey : List UInt8} {pem : CStr} {e : Error}
      (hr : blobOf "device.crt" r = .ok certificate)
      (hq : blobOf "device.key" q = .ok privateKey) (hpem : leakPem certificate "certificate" = .ok pem)
      (he : leakPem privateKey "private key" = .error e) :
      Course (.error e)
        [.dropped, .leaked pem, .read "device.key" q, .read "device.crt" r, .opened (.ok ()), .took (.ok ()), .looked none]
  | made {r q : BlobRead} {certificate privateKey : List UInt8} {pem keyPem : CStr} (c : Credentials)
      (hr : blobOf "device.crt" r = .ok certificate) (hq : blobOf "device.key" q = .ok privateKey)
      (hpem : leakPem certificate "certificate" = .ok pem) (hkey : leakPem privateKey "private key" = .ok keyPem) :
      Course (.ok c) [.dropped, .gotOrInit (.clientCertificate pem keyPem) c, .leaked keyPem, .leaked pem,
        .read "device.key" q, .read "device.crt" r, .opened (.ok ()), .took (.ok ()), .looked none]

/-- One of the callers has read these credentials, both blobs of them. -/
def Sourced (c : Credentials) (trace : List (ι × LoadEvent)) : Prop :=
  ∃ i r q certificate privateKey, (i, .read "device.crt" r) ∈ trace ∧ (i, .read "device.key" q) ∈ trace ∧
    blobOf "device.crt" r = .ok certificate ∧ blobOf "device.key" q = .ok privateKey ∧
    clientCertificate certificate privateKey = .ok c

/-- What holds of the callers together, and of each that has ended. -/
structure LoadedOnce (p : Boot ι σ × (ι → Load ι σ Credentials)) : Prop where
  sourced : ∀ c, p.1.loaded = some c → Sourced c p.1.trace
  same : ∀ i c, p.2 i = .ret c → p.1.loaded = some c
  returned : ∀ i c, p.2 i = .ret c → Course (.ok c) (own i p.1.trace)
  failed : ∀ i e, p.2 i = .err e → Course (.error e) (own i p.1.trace)

/-! ### What a step does to the others -/

theorem own_self (i : ι) (e : LoadEvent) (trace : List (ι × LoadEvent)) : own i ((i, e) :: trace) = e :: own i trace := by
  simp [own]

theorem own_other {i j : ι} (h : j ≠ i) (e : LoadEvent) (trace : List (ι × LoadEvent)) :
    own i ((j, e) :: trace) = own i trace := by
  simp [own, h]

theorem mem_of_own {i : ι} {e : LoadEvent} {trace : List (ι × LoadEvent)} (h : e ∈ own i trace) : (i, e) ∈ trace := by
  obtain ⟨⟨j, e'⟩, hmem, he⟩ := List.mem_filterMap.mp h
  split_ifs at he with hj
  cases he
  exact hj ▸ hmem

omit [DecidableEq ι] in
theorem Sourced.cons {c : Credentials} {trace : List (ι × LoadEvent)} (h : Sourced c trace) (e : ι × LoadEvent) :
    Sourced c (e :: trace) := by
  obtain ⟨i, r, q, certificate, privateKey, hr, hq, hrest⟩ := h
  exact ⟨i, r, q, certificate, privateKey, List.mem_cons_of_mem _ hr, List.mem_cons_of_mem _ hq, hrest⟩

/-- What `LOADED` holds has been read. -/
def Founded (s : Boot ι σ) : Prop := ∀ c, s.loaded = some c → Sourced c s.trace

/-- A step of caller `i`: it says so, and leaves what is in `LOADED` there. -/
def Adds (i : ι) (s t : Boot ι σ) : Prop := (∃ e, t.trace = (i, e) :: s.trace) ∧ ∀ c, s.loaded = some c → t.loaded = some c

variable {i : ι} {done : List LoadEvent}

/-- What is said of a caller's own steps, and of what is in `LOADED`, stays true while the others go on. -/
theorem stable_own (p : List LoadEvent → Prop) (found : Option Credentials) :
    Stable (Founded (σ := σ)) Adds i fun s => p (own i s.trace) ∧ ∀ c, found = some c → s.loaded = some c := by
  intro j hj s t _ hs hst
  obtain ⟨hp, hfound⟩ := hs
  obtain ⟨⟨e, htrace⟩, hkept⟩ := hst
  refine ⟨?_, fun c hc => hkept c (hfound c hc)⟩
  rw [htrace, own_other hj]
  exact hp

/-! ### The steps -/

/-- The caller has done this so far. -/
def Did (i : ι) (done : List LoadEvent) (s : Boot ι σ) : Prop := own i s.trace = done

/-- It goes on to end well, once the storage is let go. -/
def Ended (i : ι) (o : Except Error Credentials) (s : Boot ι σ) : Prop :=
  Course o (own i s.trace) ∧ ∀ c, o.toOption = some c → s.loaded = some c

/-- It has ended, but for the storage to be let go. -/
def Held (i : ι) (o : Except Error Credentials) (s : Boot ι σ) : Prop :=
  Course o (.dropped :: own i s.trace) ∧ ∀ c, o.toOption = some c → s.loaded = some c

theorem stable_did (done : List LoadEvent) : Stable (Founded (σ := σ)) Adds i (Did i done) := by
  intro j hj s t hI hs hst
  exact (stable_own (· = done) none j hj s t hI ⟨hs, fun _ h => nomatch h⟩ hst).1

theorem stable_ended (o : Except Error Credentials) : Stable (Founded (σ := σ)) Adds i (Ended i o) :=
  stable_own (Course o) o.toOption

theorem stable_held (o : Except Error Credentials) : Stable (Founded (σ := σ)) Adds i (Held i o) :=
  stable_own (fun done => Course o (.dropped :: done)) o.toOption

omit [DecidableEq ι] in
theorem Founded.grow {s t : Boot ι σ} (h : Founded s) {e : ι × LoadEvent} (htrace : t.trace = e :: s.trace)
    (hloaded : t.loaded = s.loaded) : Founded t := by
  intro c hc
  rw [htrace]
  exact (h c (hloaded ▸ hc)).cons e

theorem Did.grow {s t : Boot ι σ} (h : Did i done s) {e : LoadEvent} (htrace : t.trace = (i, e) :: s.trace) :
    Did i (e :: done) t := by
  show own i t.trace = _
  rw [htrace, own_self, h]

/-- A step that leaves `LOADED` alone. -/
theorem secure_step {α : Type} {φ : α → Prop} {X : Error → Boot ι σ → Prop} {f : Boot ι σ → α × Boot ι σ}
    {ev : α → LoadEvent}
    (htrace : ∀ s, (f s).2.trace = (i, ev (f s).1) :: s.trace) (hloaded : ∀ s, (f s).2.loaded = s.loaded)
    (hφ : ∀ s, φ (f s).1) :
    Secure Founded Adds i (fun a s => φ a ∧ Did i (ev a :: done) s) X (atom f) (Did i done) :=
  Secure.atom (fun s hI _ => hI.grow (htrace s) (hloaded s))
    (fun s _ _ => ⟨⟨_, htrace s⟩, fun _ hc => (hloaded s).trans hc⟩)
    (fun s _ hs => ⟨hφ s, hs.grow (htrace s)⟩) fun _ => (stable_did _).given

variable {nvs : Nvs σ} {X : Error → Boot ι σ → Prop}

theorem secure_call {α : Type} (f : σ → α × σ) (ev : α → LoadEvent) :
    Secure Founded Adds i (fun r s => True ∧ Did i (ev r :: done) s) X (call i f ev) (Did i done) :=
  secure_step (fun _ => rfl) (fun _ => rfl) fun _ => trivial

theorem secure_readBlob {key : String} (herr : ∀ r e, blobOf key r = .error e →
    ∀ s, Did i (.read key r :: done) s → X e s) :
    Secure Founded Adds i (fun value s => ∃ r, blobOf key r = .ok value ∧ Did i (.read key r :: done) s) X
      (readBlob nvs i key)
      (Did i done) := by
  refine Secure.bind (secure_call (nvs.getBlob key) (.read key)) fun r => ?_
  exact Secure.ofExcept (fun value hvalue s _ hs => ⟨r, hvalue, hs.2⟩) fun e he s _ hs => herr r e he s hs.2

theorem secure_leak {bytes : List UInt8} {what : String}
    (herr : ∀ e, leakPem bytes what = .error e → ∀ s, Did i done s → X e s) :
    Secure Founded Adds i (fun pem s => leakPem bytes what = .ok pem ∧ Did i (.leaked pem :: done) s) X (leak i bytes what)
      (Did i done) := by
  refine Secure.bind_ofExcept (fun pem hpem => ?_) fun e he s _ hs => herr e he s hs
  exact secure_step (fun _ => rfl) (fun _ => rfl) fun _ => hpem

/-- What a caller has done once the namespace is open. -/
def opening : List LoadEvent := [.opened (.ok ()), .took (.ok ()), .looked none]

theorem secure_getOrInit {r q : BlobRead} {certificate privateKey : List UInt8} {pem keyPem : CStr}
    (hr : blobOf "device.crt" r = .ok certificate) (hq : blobOf "device.key" q = .ok privateKey)
    (hpem : leakPem certificate "certificate" = .ok pem) (hkey : leakPem privateKey "private key" = .ok keyPem) :
    Secure Founded Adds i (fun c => Held i (.ok c)) X (getOrInit i (.clientCertificate pem keyPem))
      (Did (σ := σ) i (.leaked keyPem :: .leaked pem :: .read "device.key" q :: .read "device.crt" r :: opening)) := by
  have hread : ∀ s : Boot ι σ, Did i (.leaked keyPem :: .leaked pem :: .read "device.key" q ::
    .read "device.crt" r :: opening) s →
      Sourced (.clientCertificate pem keyPem) s.trace := by
    intro s hs
    have hmem : ∀ e ∈ LoadEvent.leaked keyPem :: .leaked pem :: .read "device.key" q :: .read "device.crt" r :: opening,
        (i, e) ∈ s.trace := fun e he => mem_of_own (hs ▸ he)
    refine ⟨i, r, q, certificate, privateKey, hmem _ (by simp), hmem _ (by simp), hr, hq, ?_⟩
    rw [clientCertificate, hpem, hkey]
    rfl
  refine Secure.atom (fun s hI hs c hc => ?_) (fun s hI hs => ⟨⟨_, rfl⟩, fun c hc => ?_⟩)
    (fun s hI hs => ?_) fun c => stable_held _
  · have hgot : s.loaded.getD (.clientCertificate pem keyPem) = c := Option.some.inj hc
    refine Sourced.cons ?_ _
    cases hs' : s.loaded with
    | none =>
      rw [hs'] at hgot
      exact hgot ▸ hread s hs
    | some kept =>
      rw [hs'] at hgot
      exact hgot ▸ hI kept hs'
  · show some (s.loaded.getD _) = _
    rw [hc]
    rfl
  · refine ⟨?_, fun c hc => congrArg some (Option.some.inj hc)⟩
    show Course _ (.dropped :: own i ((i, _) :: s.trace))
    rw [own_self, hs]
    exact .made _ hr hq hpem hkey

theorem secure_loadOpened : Secure Founded Adds i (fun c => Held i (.ok c)) (fun e => Held i (.error e)) (loadOpened nvs i)
    (Did i opening) := by
  refine Secure.bind (secure_readBlob fun r e he s hs => ?_) fun certificate => ?_
  · refine ⟨?_, fun c hc => nomatch hc⟩
    rw [hs]
    exact .noCertificate he
  refine Secure.of_exists fun r => Secure.of_and fun hr => ?_
  refine Secure.bind (secure_readBlob fun q e he s hs => ?_) fun privateKey => ?_
  · refine ⟨?_, fun c hc => nomatch hc⟩
    rw [hs]
    exact .noKey hr he
  refine Secure.of_exists fun q => Secure.of_and fun hq => ?_
  refine Secure.bind (R := fun c s => ∃ p : CStr × CStr, c = .clientCertificate p.1 p.2 ∧
    leakPem certificate "certificate" = .ok p.1 ∧ leakPem privateKey "private key" = .ok p.2 ∧
    Did i (.leaked p.2 :: .leaked p.1 :: .read "device.key" q :: .read "device.crt" r :: opening) s) ?_ fun c => ?_
  · refine Secure.bind (secure_leak fun e he s hs => ?_) fun pem => Secure.of_and fun hpem => ?_
    · refine ⟨?_, fun c hc => nomatch hc⟩
      rw [hs]
      exact .badCertificate hr hq he
    refine Secure.bind (secure_leak fun e he s hs => ?_) fun keyPem => Secure.of_and fun hkey => ?_
    · refine ⟨?_, fun c hc => nomatch hc⟩
      rw [hs]
      exact .badKey hr hq hpem he
    exact Secure.ret fun s _ hs => ⟨(pem, keyPem), rfl, hpem, hkey, hs⟩
  · refine Secure.of_exists fun p => Secure.of_and fun hc => Secure.of_and fun hpem => Secure.of_and fun hkey => ?_
    rw [hc]
    exact secure_getOrInit hr hq hpem hkey

theorem secure_loadAfresh : Secure Founded Adds i (fun c => Ended i (.ok c)) (fun e => Ended i (.error e))
    (loadAfresh nvs i)
    (Did i [.looked none]) := by
  refine Secure.bind (secure_call (nvs.takePartition certsPartition) .took) fun taken => Secure.of_and fun _ => ?_
  cases taken with
  | error e =>
    intro s hI hs
    refine ⟨?_, fun c hc => nomatch hc⟩
    rw [hs]
    exact .noPartition e
  | ok _ =>
    refine Secure.bind_ofExcept (fun _ _ => ?_) fun e he => nomatch he
    refine Secure.bind (secure_call (nvs.openNamespace certsNamespace) .opened) fun opened => Secure.of_and fun _ => ?_
    cases opened with
    | error e =>
      intro s hI hs
      refine ⟨?_, fun c hc => nomatch hc⟩
      rw [hs]
      exact .noNamespace e
    | ok _ =>
      have hdrop : ∀ o s, Founded s → Held i o s → Founded { s.note i .dropped with env := nvs.drop s.env } ∧
          Adds i s { s.note i .dropped with env := nvs.drop s.env } ∧
              Ended i o { s.note i .dropped with env := nvs.drop s.env } := by
        intro o s hI hs
        refine ⟨hI.grow rfl rfl, ⟨⟨_, rfl⟩, fun c hc => hc⟩, ?_, hs.2⟩
        show Course o (own i ((i, .dropped) :: s.trace))
        rw [own_self]
        exact hs.1
      refine Secure.bind_ofExcept (fun _ _ => ?_) fun e he => nomatch he
      exact Secure.ensuring secure_loadOpened (fun c s => hdrop (.ok c) s) (fun e s => hdrop (.error e) s)
        (fun c => stable_ended _)
        fun e => stable_ended _

theorem secure_load : Secure Founded Adds i (fun c => Ended i (.ok c)) (fun e => Ended i (.error e)) (load nvs i)
    (Did i []) := by
  refine Secure.bind (R := fun found s => own i s.trace = [.looked found] ∧ ∀ c, found = some c →
    s.loaded = some c) ?_ fun found => ?_
  · refine Secure.atom (fun s hI hs => hI.grow rfl rfl) (fun s hI hs => ⟨⟨_, rfl⟩, fun c hc => hc⟩) (fun s hI hs => ?_)
      fun found => stable_own (· = [.looked found]) found
    exact ⟨Did.grow hs rfl, fun c hc => hc⟩
  cases found with
  | none => exact secure_loadAfresh.pre fun s _ hs => hs.1
  | some c =>
    refine Secure.ret fun s _ hs => ⟨?_, fun c' hc' => hs.2 c' hc'⟩
    rw [hs.1]
    exact .found c

/-! ### All callers -/

omit [DecidableEq ι] in
theorem within_readBlob (key : String) : (readBlob nvs i key : Load ι σ _).Within 1 :=
  (within_atom _).bind fun _ => within_ofExcept 0 _

omit [DecidableEq ι] in
theorem within_leak (bytes : List UInt8) (what : String) : (leak i bytes what : Load ι σ _).Within 1 :=
  within_bind_ofExcept fun _ => within_atom _

omit [DecidableEq ι] in
/-- Two blobs, two leaks, and `LOADED`. -/
theorem within_loadOpened : (loadOpened nvs i).Within 5 := by
  refine (within_readBlob _).bind fun certificate => (within_readBlob _).bind (l := 3) fun privateKey => ?_
  refine Within.bind (n := 2) ?_ fun c => within_atom _
  exact (within_leak certificate _).bind fun pem => (within_leak privateKey _).bind fun keyPem => within_ret 0 _

omit [DecidableEq ι] in
/-- A caller waits for no other. -/
theorem within_load : (load nvs i).Within 9 := by
  refine (within_atom _).bind (l := 8) fun found => ?_
  cases found with
  | some c => exact within_ret 8 c
  | none =>
    refine (within_atom _).bind (l := 7) fun taken => within_bind_ofExcept fun _ => ?_
    refine (within_atom _).bind (l := 6) fun opened => within_bind_ofExcept fun _ => ?_
    exact within_loadOpened.ensuring _

variable (nvs) (env : σ)

theorem start_secure :
    AllSecure Founded Adds (fun i c => Ended i (.ok c)) (fun i e => Ended i (.error e))
      (Boot.start (ι := ι) env, load nvs) :=
  ⟨fun _ h => (nomatch h), fun i => ⟨Did i [], stable_did [], rfl, secure_load⟩⟩

theorem loads_secure (order : List ι) :
    AllSecure Founded Adds (fun i c => Ended i (.ok c)) (fun i e => Ended i (.error e)) (loads nvs env order) :=
  (start_secure nvs env).run order

theorem loads_loadedOnce (order : List ι) : LoadedOnce (loads nvs env order) where
  sourced := (loads_secure nvs env order).1
  same _ c h := ((loads_secure nvs env order).returned h).2 c rfl
  returned _ _ h := ((loads_secure nvs env order).returned h).1
  failed _ _ h := ((loads_secure nvs env order).failed h).1

theorem loads_kept {first : List ι} {c : Credentials} (hc : (loads nvs env first).1.loaded = some c) (rest : List ι) :
    (loads nvs env (first ++ rest)).1.loaded = some c := by
  rw [loads, run_append]
  exact (loads_secure nvs env first).keeps (K := fun s => s.loaded = some c) (fun _ _ _ _ _ hs hst => hst.2 c hs) hc

/-- A caller that comes when the credentials are there only looks. -/
theorem loads_later {first : List ι} {j : ι} {c : Credentials} (hc : (loads nvs env first).1.loaded = some c)
    (hj : j ∉ first) (rest : List ι) : (loads nvs env (first ++ j :: rest)).2 j = .ret c ∧
      own j (loads nvs env (first ++ j :: rest)).1.trace = [.looked (some c)] := by
  have hsecure := loads_secure nvs env first
  have hload : (loads nvs env first).2 j = load nvs j := run_of_not_mem hj
  have hnone : Did j [] (loads nvs env first).1 := by
    refine (start_secure nvs env).keeps (fun i hi s t hI hs hst => ?_) rfl
    exact stable_did [] i (fun hij : i = j => hj (hij ▸ hi)) s t hI hs hst
  have hret : (stepBy j (loads nvs env first)).2 j = .ret c := by
    rw [stepBy_self (hload.trans rfl)]
    show Thread.bind (.ret (loads nvs env first).1.loaded) _ = _
    rw [hc]
    rfl
  have hlooked : Did j [.looked (some c)] (stepBy j (loads nvs env first)).1 := by
    rw [stepBy_step (hload.trans rfl)]
    refine hnone.grow ?_
    rw [← hc]
    rfl
  rw [loads, run_append, run_cons]
  have hended : (Threads.run rest (stepBy j (loads nvs env first))).2 j = .ret c := by
    rw [run_ended (hret ▸ trivial), hret]
  refine ⟨hended, ?_⟩
  have hsecurej : Secure Founded Adds j (fun _ => Did j [.looked (some c)]) (fun _ _ => False)
    ((stepBy j (loads nvs env first)).2 j)
      (Did j [.looked (some c)]) := by
    rw [hret]
    exact fun s _ hs => hs
  have hdid := (((hsecure.stepBy j).hold j (stable_did _) hlooked hsecurej).run rest).returned hended
  rw [Function.update_self] at hdid
  exact hdid

/-- Whoever calls `load`, in whatever order their steps come, and whatever the storage answers: all are given what one of
them has read, each ends in nine steps of its own, and who comes after the first has been given it only looks. -/
theorem identity_loaded_once (first rest : List ι) :
    LoadedOnce (loads nvs env first) ∧ (∀ i, 9 ≤ first.count i → ((loads nvs env first).2 i).Within 0) ∧
    ∀ i c, (loads nvs env first).2 i = .ret c → (loads nvs env (first ++ rest)).1.loaded = some c ∧
      ∀ j, j ∉ first → (loads nvs env (first ++ j :: rest)).2 j = .ret c ∧
        own j (loads nvs env (first ++ j :: rest)).1.trace = [.looked (some c)] := by
  refine ⟨loads_loadedOnce nvs env first, fun i hi => ?_, fun i c hret => ?_⟩
  · have hwithin := run_within (p := (Boot.start env, load nvs)) (i := i) first within_load
    rw [Nat.sub_eq_zero_of_le hi] at hwithin
    exact hwithin
  · have hc := (loads_loadedOnce nvs env first).same i c hret
    exact ⟨loads_kept nvs env hc rest, fun j hj => loads_later nvs env hc hj rest⟩

end

end NervesHub.Identity
