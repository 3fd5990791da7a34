import NervesHubLink.Credentials

/-! What is taken for a certificate and its key. -/

namespace NervesHub

/-! ### NULs at the end -/

/-- What bytes are once all the NULs at their end are removed, if that is a PEM: something, with no NUL in it. -/
def Pem (bytes body : List UInt8) : Prop := body ≠ [] ∧ 0 ∉ body ∧ ∃ n, bytes = body ++ List.replicate n 0

theorem stripNuls_append {body : List UInt8} (h : 0 ∉ body) (n : Nat) : stripNuls (body ++ List.replicate n 0) = body := by
  induction n with
  | zero =>
    rw [List.replicate_zero, List.append_nil]
    refine List.rdropWhile_eq_self_iff.mpr fun hne hlast => h ?_
    rw [← beq_iff_eq.mp hlast]
    exact List.getLast_mem hne
  | succ n ih =>
    rw [List.replicate_succ', ← List.append_assoc, stripNuls, List.rdropWhile_concat_pos _ _ _ rfl]
    exact ih

theorem stripNuls_spec (bytes : List UInt8) : ∃ n, bytes = stripNuls bytes ++ List.replicate n 0 := by
  refine ⟨(bytes.rtakeWhile (· == 0)).length, ?_⟩
  have hzeros : bytes.rtakeWhile (· == 0) = List.replicate (bytes.rtakeWhile (· == 0)).length 0 :=
    List.eq_replicate_iff.mpr ⟨rfl, fun b hb => by simpa using List.mem_rtakeWhile_imp hb⟩
  rw [← hzeros]
  exact List.rdropWhile_append_rtakeWhile.symm

theorem CStr.new_eq_some {bytes : List UInt8} {c : CStr} : CStr.new bytes = some c ↔ c.bytes = bytes := by
  unfold CStr.new
  obtain ⟨body, hbody⟩ := c
  split_ifs with h
  · refine iff_of_false (by simp) ?_
    rintro rfl
    exact hbody h
  · simp [eq_comm]

/-! ### One PEM -/

theorem leakPem_eq_ok {bytes : List UInt8} {what : String} {c : CStr} :
    leakPem bytes what = .ok c ↔ bytes ≠ [] ∧ ∃ n, bytes = c.bytes ++ List.replicate n 0 := by
  unfold leakPem
  cases bytes with
  | nil => simp
  | cons b rest =>
    have hnew : CStr.new (stripNuls (b :: rest)) = some c ↔ ∃ n, b :: rest = c.bytes ++ List.replicate n 0 := by
      rw [CStr.new_eq_some]
      constructor
      · intro h
        rw [h]
        exact stripNuls_spec _
      · rintro ⟨n, h⟩
        rw [h, stripNuls_append c.noNul]
    rw [← hnew]
    cases CStr.new (stripNuls (b :: rest)) <;> simp

/-- A NUL with anything else behind it, or nothing at all. -/
def Refused (bytes : List UInt8) : Prop := bytes = [] ∨ ∃ before after, bytes = before ++ 0 :: after ∧ ∃ b ∈ after, b ≠ 0

/-- NULs, and nothing else. -/
def OnlyNuls (bytes : List UInt8) : Prop := bytes ≠ [] ∧ ∀ b ∈ bytes, b = 0

theorem zeros_of_append {body before after : List UInt8} {n : Nat} (hbody : 0 ∉ body)
    (h : body ++ List.replicate n 0 = before ++ 0 :: after) : ∀ b ∈ after, b = 0 := by
  intro b hb
  rcases List.append_eq_append_iff.mp h with ⟨c, -, hzeros⟩ | ⟨c, rfl, hc⟩
  · have hmem : b ∈ List.replicate n (0 : UInt8) := by
      rw [hzeros]
      exact List.mem_append_right _ (List.mem_cons_of_mem _ hb)
    exact List.eq_of_mem_replicate hmem
  · cases c with
    | nil =>
      have hmem : b ∈ List.replicate n (0 : UInt8) := by
        rw [List.nil_append] at hc
        rw [← hc]
        exact List.mem_cons_of_mem _ hb
      exact List.eq_of_mem_replicate hmem
    | cons d c =>
      obtain ⟨rfl, -⟩ := List.cons.inj hc
      exact absurd (List.mem_append_right _ List.mem_cons_self) hbody

theorem refused_iff {bytes : List UInt8} (what : String) : Refused bytes ↔ ∀ c, leakPem bytes what ≠ .ok c := by
  constructor
  · rintro (rfl | ⟨before, after, hinner, b, hb, hne⟩) c hok
    · exact (leakPem_eq_ok.mp hok).1 rfl
    · obtain ⟨-, n, hc⟩ := leakPem_eq_ok.mp hok
      exact hne (zeros_of_append c.noNul (hc.symm.trans hinner) b hb)
  · intro h
    by_cases hempty : bytes = []
    · exact .inl hempty
    · obtain ⟨n, hn⟩ := stripNuls_spec bytes
      by_cases hnul : 0 ∈ stripNuls bytes
      · obtain ⟨before, after, hsplit⟩ := List.append_of_mem hnul
        refine .inr ⟨before, after ++ List.replicate n 0, ?_, ?_⟩
        · rw [hn, hsplit, List.append_assoc, List.cons_append]
        · have hne : stripNuls bytes ≠ [] := List.ne_nil_of_mem hnul
          have hlast := List.rdropWhile_last_not (fun b : UInt8 => b == 0) bytes hne
          by_contra hnone
          have hzeros : ∀ b ∈ (0 : UInt8) :: after, b = 0 := by
            intro b hb
            rcases List.mem_cons.mp hb with rfl | hb
            · rfl
            · by_contra hb'
              exact hnone ⟨b, List.mem_append_left _ hb, hb'⟩
          have hmem : (stripNuls bytes).getLast hne ∈ (0 : UInt8) :: after := by
            have heq : (stripNuls bytes).getLast hne = (0 :: after).getLast (List.cons_ne_nil _ _) := by
              simp only [hsplit]
              exact List.getLast_append_of_ne_nil _ (List.cons_ne_nil _ _)
            rw [heq]
            exact List.getLast_mem _
          exact hlast (beq_iff_eq.mpr (hzeros _ hmem))
      · exact absurd (leakPem_eq_ok.mpr ⟨hempty, n, hn⟩) (h ⟨stripNuls bytes, hnul⟩)

/-! ### The pair -/

/-- A pair is taken exactly if both are PEMs, and then held as these, each with one NUL after it. -/
def CertificateJudged (certificate privateKey : List UInt8) : Prop :=
  ((∃ credentials, clientCertificate certificate privateKey = .ok credentials) ↔
    (∃ body, Pem certificate body) ∧ ∃ body, Pem privateKey body) ∧
  ∀ credentials, clientCertificate certificate privateKey = .ok credentials → ∃ held heldKey body bodyKey,
    credentials = .clientCertificate held heldKey ∧ Pem certificate body ∧ held.toBytesWithNul = body ++ [0] ∧
      Pem privateKey bodyKey ∧ heldKey.toBytesWithNul = bodyKey ++ [0]

theorem clientCertificate_eq_ok {certificate privateKey : List UInt8} {credentials : Credentials} :
    clientCertificate certificate privateKey = .ok credentials ↔
    ∃ held heldKey, credentials = .clientCertificate held heldKey ∧
      leakPem certificate "certificate" = .ok held ∧ leakPem privateKey "private key" = .ok heldKey := by
  unfold clientCertificate
  cases leakPem certificate "certificate" with
  | error err => simp [bind, Except.bind]
  | ok held =>
    cases leakPem privateKey "private key" with
    | error err => simp [bind, Except.bind]
    | ok heldKey => simp [bind, Except.bind, pure, Except.pure, eq_comm]

theorem Pem.leakPem {bytes body : List UInt8} (h : Pem bytes body) (what : String) :
    leakPem bytes what = .ok ⟨body, h.2.1⟩ := by
  obtain ⟨hne, hnul, n, rfl⟩ := h
  exact leakPem_eq_ok.mpr ⟨List.append_ne_nil_of_left_ne_nil hne _, n, rfl⟩

/-- What is taken is a PEM, unless it was nothing but NULs. -/
theorem pem_of_leakPem {bytes : List UInt8} {what : String} {c : CStr} (h : leakPem bytes what = .ok c)
    (hnuls : ¬ OnlyNuls bytes) :
    Pem bytes c.bytes := by
  obtain ⟨hne, n, hn⟩ := leakPem_eq_ok.mp h
  refine ⟨fun hempty => hnuls ⟨hne, ?_⟩, c.noNul, n, hn⟩
  rw [hn, hempty, List.nil_append]
  exact fun b hb => List.eq_of_mem_replicate hb

theorem OnlyNuls.not_pem {bytes body : List UInt8} (h : OnlyNuls bytes) (hpem : Pem bytes body) : False := by
  obtain ⟨hne, hnul, n, rfl⟩ := hpem
  obtain ⟨b, hb⟩ := List.exists_mem_of_ne_nil body hne
  exact hnul (h.2 b (List.mem_append_left _ hb) ▸ hb)

theorem OnlyNuls.leakPem {bytes : List UInt8} (h : OnlyNuls bytes) (what : String) :
    leakPem bytes what = .ok ⟨[], List.not_mem_nil⟩ :=
  leakPem_eq_ok.mpr ⟨h.1, bytes.length, List.eq_replicate_iff.mpr ⟨rfl, h.2⟩⟩

/-- A pair is judged so exactly if neither is nothing but NULs, or the other one is refused for its own sake. -/
theorem certificate_judged_iff (certificate privateKey : List UInt8) :
    CertificateJudged certificate privateKey ↔
      (OnlyNuls certificate → Refused privateKey) ∧ (OnlyNuls privateKey → Refused certificate) := by
  constructor
  · rintro ⟨-, hheld⟩
    refine ⟨fun hnuls => (refused_iff "private key").mpr fun heldKey hkey => ?_,
      fun hnuls => (refused_iff "certificate").mpr fun held hcert => ?_⟩
    · obtain ⟨_, _, body, _, -, hpem, -⟩ :=
        hheld _ (clientCertificate_eq_ok.mpr ⟨_, heldKey, rfl, hnuls.leakPem _, hkey⟩)
      exact hnuls.not_pem hpem
    · obtain ⟨_, _, _, body, -, -, -, hpem, -⟩ :=
        hheld _ (clientCertificate_eq_ok.mpr ⟨held, _, rfl, hcert, hnuls.leakPem _⟩)
      exact hnuls.not_pem hpem
  · rintro ⟨hcert, hkey⟩
    have hboth : ∀ {held heldKey}, leakPem certificate "certificate" = .ok held →
      leakPem privateKey "private key" = .ok heldKey →
        Pem certificate held.bytes ∧ Pem privateKey heldKey.bytes := fun hheld hheldKey =>
      ⟨pem_of_leakPem hheld fun hnuls => (refused_iff _).mp (hcert hnuls) _ hheldKey,
        pem_of_leakPem hheldKey fun hnuls => (refused_iff _).mp (hkey hnuls) _ hheld⟩
    refine ⟨⟨?_, ?_⟩, ?_⟩
    · rintro ⟨credentials, hok⟩
      obtain ⟨held, heldKey, -, hheld, hheldKey⟩ := clientCertificate_eq_ok.mp hok
      obtain ⟨hpem, hpemKey⟩ := hboth hheld hheldKey
      exact ⟨⟨_, hpem⟩, _, hpemKey⟩
    · rintro ⟨⟨body, hpem⟩, bodyKey, hpemKey⟩
      exact ⟨_, clientCertificate_eq_ok.mpr ⟨_, _, rfl, hpem.leakPem _, hpemKey.leakPem _⟩⟩
    · intro credentials hok
      obtain ⟨held, heldKey, heq, hheld, hheldKey⟩ := clientCertificate_eq_ok.mp hok
      obtain ⟨hpem, hpemKey⟩ := hboth hheld hheldKey
      exact ⟨held, heldKey, _, _, heq, hpem, rfl, hpemKey, rfl⟩

/-- One NUL for a certificate, and `key` for its key. -/
theorem certificate_of_nul : ¬ CertificateJudged [0] [107, 101, 121] := by
  rintro ⟨-, hheld⟩
  have hnuls : OnlyNuls [0] := ⟨by simp, by simp⟩
  have hkey : leakPem [107, 101, 121] "private key" = .ok ⟨[107, 101, 121], by decide⟩ := rfl
  obtain ⟨_, _, body, _, -, hpem, -⟩ := hheld _ (clientCertificate_eq_ok.mpr ⟨_, _, rfl, hnuls.leakPem _, hkey⟩)
  exact hnuls.not_pem hpem

end NervesHub
