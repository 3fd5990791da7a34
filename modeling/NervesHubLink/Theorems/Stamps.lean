import Mathlib.Data.String.Basic
import NervesHubLink.Theorems.Taking

/-! The times of the lines of a batch: those they had, and those they are given when they are taken. -/

namespace NervesHub
open Keyed

/-! ### The time of a line -/

/-- A number as it is written. -/
def decimal (s : String) : Option Nat :=
  if !s.toList.isEmpty && s.toList.all Char.isDigit then some (Nat.ofDigitChars 10 s.toList 0) else none

theorem decimal_toString (n : Nat) : decimal (toString n) = some n := by
  have hlist : (toString n).toList = Nat.toDigits 10 n := Nat.toList_repr
  have hne : (Nat.toDigits 10 n).isEmpty = false := by simp [Nat.toDigits_ne_nil]
  have hdigits : (Nat.toDigits 10 n).all Char.isDigit = true :=
    List.all_eq_true.mpr fun c hc => Nat.isDigit_of_mem_toDigits (by decide) (by decide) hc
  rw [decimal, hlist, hne, hdigits, Nat.ofDigitChars_ten_toDigits]
  rfl

namespace LogLine

/-- When a line was logged, as a server reads it: of a key given twice, the later value. -/
def time (line : LogLine) : Option Nat := (last line.metaPairs "time").bind decimal

theorem time_withTime (line : LogLine) (micros : Nat) : (line.withTime micros).time = some micros := by
  rw [time, withTime, addMeta, last_concat, if_pos rfl]
  exact decimal_toString micros

theorem hasTime_withTime (line : LogLine) (micros : Nat) : (line.withTime micros).hasTime = true := by
  simp [hasTime, withTime, addMeta]

/-- Both have a time, and the first is not the later one. -/
def NoLater (a b : LogLine) : Prop := ∃ s ∈ a.time, ∃ t ∈ b.time, s ≤ t

instance (a b : LogLine) : Decidable (NoLater a b) := inferInstanceAs (Decidable (∃ s ∈ a.time, ∃ t ∈ b.time, s ≤ t))

end LogLine

theorem stamp_timed {line : LogLine} (h : line.hasTime = true) (micros : Option Nat) : stamp line micros = line := by
  simp [stamp, h]

theorem stamp_untimed {line : LogLine} (h : line.hasTime = false) (micros : Nat) :
    stamp line (some micros) = line.withTime micros := by
  simp [stamp, h]

/-! ### The order of a batch -/

/-- Every line has its time, and they are in order. -/
def InOrder (lines : List LogLine) : Prop := lines.Pairwise LogLine.NoLater ∧ ∀ line ∈ lines, line.time.isSome

/-- The lines that have a time were logged one after another, and none after `now`. -/
structure TimesRise (now : Nat) (lines : List LogLine) : Prop where
  past : ∀ line ∈ lines, line.hasTime = true → ∃ t, line.time = some t ∧ t ≤ now
  rising : lines.Pairwise fun a b => a.hasTime = true → b.hasTime = true → a.NoLater b

theorem TimesRise.sublist {now : Nat} {l l' : List LogLine} (h : TimesRise now l) (hl : l'.Sublist l) : TimesRise now l' :=
  ⟨fun line hline => h.past line (hl.subset hline), h.rising.sublist hl⟩

/-- What holds of the lines however they come: each has a time, and keeps the one that it had. -/
structure Timed (raw lines : List LogLine) : Prop where
  length : lines.length = raw.length
  timed : ∀ line ∈ lines, line.hasTime = true
  unchanged : ∀ p ∈ raw.zip lines, p.1.hasTime = true → p.2 = p.1

/-- The times that lines are given here are a microsecond or more apart, in order. -/
def Apart (raw lines : List LogLine) : Prop :=
  ((raw.zip lines).filter fun p => !p.1.hasTime).Pairwise fun p q => ∃ s ∈ p.2.time, ∃ t ∈ q.2.time, s < t

/-- Of the lines as they are held: those that have a time come first. Only the very first may do without one, if
    every time after it is this very moment. -/
def TimedFirst (now : Nat) : List LogLine → Prop
  | [] => True
  | first :: rest => (rest.Pairwise fun a b => b.hasTime = true → a.hasTime = true) ∧
    (first.hasTime = false → ∀ line ∈ rest, line.hasTime = true → line.time = some now)

/-- At each place of a line that has no time, the clock has not come round by then; or at each, it has. -/
def NotRound (now : Nat) (raw : List LogLine) : Prop := ∀ i, ∀ h : i < raw.length, raw[i].hasTime = false → now + i < 2 ^ 64
def ComeRound (now : Nat) (raw : List LogLine) : Prop := ∀ i, ∀ h :
    i < raw.length, raw[i].hasTime = false → 2 ^ 64 ≤ now + i

/-- No line that has a time is later than one after it that is given what the clock shows once it has come round, or earlier
    than one before it. -/
def RoundBetween (now : Nat) (raw : List LogLine) : Prop :=
  ∀ i j, ∀ hi : i < raw.length, ∀ hj : j < raw.length, i < j →
    (raw[i].hasTime = false → raw[j].hasTime = true → ∃ t, raw[j].time = some t ∧ now + i ≤ t + 2 ^ 64) ∧
      (raw[i].hasTime = true → raw[j].hasTime = false → ∃ t, raw[i].time = some t ∧ t + 2 ^ 64 ≤ now + j)

/-- How the lines must be held for their times to come out in order: those that have one first, as long as the clock does
    not come round. -/
def Stampable (now : Nat) (raw : List LogLine) : Prop :=
  (NotRound now raw ∧ TimedFirst now raw) ∨ (ComeRound now raw ∧ RoundBetween now raw)

/-! ### Stamping by place -/

def stampFrom (now k : Nat) (raw : List LogLine) : List LogLine :=
  raw.mapIdx fun i line => stamp line (some (now + (k + i)))

theorem stampFrom_cons (now k : Nat) (line : LogLine) (rest : List LogLine) :
    stampFrom now k (line :: rest) = stamp line (some (now + k)) :: stampFrom now (k + 1) rest := by
  simp [stampFrom, List.mapIdx_cons, Nat.add_assoc, Nat.add_comm 1]

theorem mem_stampFrom {now k : Nat} {raw : List LogLine} {line : LogLine} (h : line ∈ stampFrom now k raw) :
    ∃ held ∈ raw, ∃ i, k ≤ i ∧ line = stamp held (some (now + i)) := by
  obtain ⟨i, hi, rfl⟩ := List.mem_mapIdx.mp h
  exact ⟨raw[i], List.getElem_mem hi, k + i, Nat.le_add_right k i, rfl⟩

theorem time_stamp {now i : Nat} {line : LogLine} (h : line.hasTime = true → ∃ t, line.time = some t ∧ t ≤ now) :
    ∃ t, (stamp line (some (now + i))).time = some t ∧ t ≤ now + i ∧
      (line.hasTime = true → line.time = some t ∧ t ≤ now) ∧ (line.hasTime = false → t = now + i) := by
  cases htime : line.hasTime with
  | true =>
    obtain ⟨t, ht, hle⟩ := h htime
    exact ⟨t, by rw [stamp_timed htime, ht], by omega, fun _ => ⟨ht, hle⟩, nofun⟩
  | false => exact ⟨now + i, by rw [stamp_untimed htime, LogLine.time_withTime], le_rfl, nofun, fun _ => rfl⟩

theorem mem_stampFrom_timed {now k : Nat} {raw : List LogLine} {line : LogLine} (h : line ∈ raw)
    (htime : line.hasTime = true) :
    line ∈ stampFrom now k raw := by
  obtain ⟨i, hi, rfl⟩ := List.mem_iff_getElem.mp h
  exact List.mem_mapIdx.mpr ⟨i, hi, stamp_timed htime _⟩

section
variable {now k : Nat} {first : LogLine} {raw rest : List LogLine}

theorem TimesRise.tail (h : TimesRise now (first :: rest)) : TimesRise now rest := h.sublist (List.sublist_cons_self _ _)

/-- What a line is followed by in order. -/
theorem noLater_stampFrom (h : TimesRise now (first :: rest)) :
    (∀ line ∈ stampFrom now (k + 1) rest, (stamp first (some (now + k))).NoLater line) ↔
      (first.hasTime = false → ∀ line ∈ rest, line.hasTime = true → ∃ t, line.time = some t ∧ now + k ≤ t) := by
  obtain ⟨s, hs, hle, htimed, huntimed⟩ := time_stamp (i := k) (h.past first List.mem_cons_self)
  constructor
  · intro hall hfirst line hline htime
    obtain ⟨s', hs', t, ht, hst⟩ := hall line (mem_stampFrom_timed hline htime)
    obtain rfl : s = s' := Option.some.inj (hs.symm.trans hs')
    exact ⟨t, ht, huntimed hfirst ▸ hst⟩
  · intro hlate line hline
    obtain ⟨held, hheld, i, hi, rfl⟩ := mem_stampFrom hline
    obtain ⟨t, ht, -, hheldTimed, hheldUntimed⟩ := time_stamp (i := i) (h.past held (List.mem_cons_of_mem _ hheld))
    refine ⟨s, hs, t, ht, ?_⟩
    cases hh : held.hasTime with
    | false =>
      have := hheldUntimed hh
      omega
    | true =>
      obtain ⟨hheldTime, hnow⟩ := hheldTimed hh
      cases hf : first.hasTime with
      | true =>
        obtain ⟨s', hs', t', ht', hst⟩ := (List.pairwise_cons.mp h.rising).1 held hheld hf hh
        obtain rfl : s' = s := Option.some.inj (hs'.symm.trans (htimed hf).1)
        obtain rfl : t' = t := Option.some.inj (ht'.symm.trans hheldTime)
        exact hst
      | false =>
        obtain ⟨t', ht', hle⟩ := hlate hf held hheld hh
        obtain rfl : t' = t := Option.some.inj (ht'.symm.trans hheldTime)
        have := huntimed hf
        omega

theorem inOrder_stampFrom_cons (h : TimesRise now (first :: rest)) :
    InOrder (stampFrom now k (first :: rest)) ↔
      (first.hasTime = false → ∀ line ∈ rest, line.hasTime = true → ∃ t, line.time = some t ∧ now + k ≤ t) ∧
        InOrder (stampFrom now (k + 1) rest) := by
  obtain ⟨s, hs, -⟩ := time_stamp (i := k) (h.past first List.mem_cons_self)
  have hsome : (stamp first (some (now + k))).time.isSome := by rw [hs]; rfl
  rw [stampFrom_cons, InOrder, InOrder, List.pairwise_cons, List.forall_mem_cons, noLater_stampFrom h, and_assoc]
  exact and_congr_right fun _ => and_congr_right fun _ => and_iff_right hsome

/-- Past the first place, a line that has a time is too early after one that has none. -/
theorem inOrder_stampFrom_succ (h : TimesRise now raw) :
    InOrder (stampFrom now (k + 1) raw) ↔ raw.Pairwise fun a b => b.hasTime = true → a.hasTime = true := by
  induction raw generalizing k with
  | nil => exact iff_of_true ⟨List.Pairwise.nil, nofun⟩ List.Pairwise.nil
  | cons first rest ih =>
    rw [inOrder_stampFrom_cons h, ih h.tail, List.pairwise_cons]
    refine and_congr_left fun _ => ⟨fun hlate line hline htime => ?_, fun hall hfirst line hline htime => ?_⟩
    · obtain ⟨t, ht, hle⟩ := h.past line (List.mem_cons_of_mem _ hline) htime
      by_contra hfirst
      obtain ⟨t', ht', hle'⟩ := hlate (Bool.eq_false_iff.mpr hfirst) line hline htime
      obtain rfl : t = t' := Option.some.inj (ht.symm.trans ht')
      omega
    · rw [hall line hline htime] at hfirst
      cases hfirst

theorem inOrder_stampFrom_iff (h : TimesRise now raw) : InOrder (stampFrom now 0 raw) ↔ TimedFirst now raw := by
  cases raw with
  | nil => exact iff_of_true ⟨List.Pairwise.nil, nofun⟩ trivial
  | cons first rest =>
    rw [inOrder_stampFrom_cons h, inOrder_stampFrom_succ h.tail, TimedFirst, and_comm]
    refine and_congr_right fun _ => forall_congr' fun _ => forall₂_congr fun line hline => forall_congr' fun htime => ?_
    obtain ⟨t, ht, hle⟩ := h.past line (List.mem_cons_of_mem _ hline) htime
    rw [ht]
    constructor
    · rintro ⟨t', ht', hle'⟩
      obtain rfl := Option.some.inj ht'
      rw [Nat.add_zero] at hle'
      rw [Nat.le_antisymm hle hle']
    · intro heq
      exact ⟨t, rfl, (Option.some.inj heq).ge⟩

end

/-! ### Stamping by the clock -/

/-- The lines as they are stamped: by their places, in 64 bits. -/
def stampAll (now : Nat) (raw : List LogLine) : List LogLine := raw.mapIdx fun i line => stamp line (some (atPlace now i))

section
variable {now : Nat} {raw : List LogLine}

theorem zip_stampAll (now : Nat) (raw : List LogLine) :
    raw.zip (stampAll now raw) = raw.mapIdx fun i line => (line, stamp line (some (atPlace now i))) := by
  refine List.ext_getElem (by simp [stampAll]) fun i hi _ => ?_
  simp [stampAll]

theorem timed_stampAll (now : Nat) (raw : List LogLine) : Timed raw (stampAll now raw) where
  length := by simp [stampAll]
  timed line hline := by
    obtain ⟨i, hi, rfl⟩ := List.mem_mapIdx.mp hline
    cases htime : raw[i].hasTime with
    | true => rw [stamp_timed htime, htime]
    | false => rw [stamp_untimed htime, LogLine.hasTime_withTime]
  unchanged p hp htime := by
    rw [zip_stampAll] at hp
    obtain ⟨i, hi, rfl⟩ := List.mem_mapIdx.mp hp
    exact stamp_timed htime _

theorem apart_stampAll : Apart raw (stampAll now raw) ↔ ∀ i j, ∀ hi : i < raw.length, ∀ hj : j < raw.length, i < j →
    raw[i].hasTime = false → raw[j].hasTime = false → atPlace now i < atPlace now j := by
  rw [Apart, List.pairwise_filter, zip_stampAll, List.pairwise_iff_getElem]
  simp only [List.length_mapIdx, List.getElem_mapIdx, Bool.not_eq_true']
  refine forall_congr' fun i => forall_congr' fun j => forall_congr' fun hi => forall_congr' fun hj =>
      forall_congr' fun _ =>
    forall_congr' fun hfirst => forall_congr' fun hnext => ?_
  rw [stamp_untimed hfirst, stamp_untimed hnext, LogLine.time_withTime, LogLine.time_withTime]
  constructor
  · rintro ⟨s, hs, t, ht, hlt⟩
    rwa [Option.some.inj hs, Option.some.inj ht]
  · exact fun hlt => ⟨_, rfl, _, rfl, hlt⟩

/-- A line that has a time, or that is given one. -/
theorem time_stampAt {i : Nat} (h : TimesRise now raw) (hi : i < raw.length) :
    ∃ t, (stamp raw[i] (some (atPlace now i))).time = some t ∧ (raw[i].hasTime = true → raw[i].time = some t) ∧
      (raw[i].hasTime = false → t = atPlace now i) := by
  cases htime : raw[i].hasTime with
  | true =>
    obtain ⟨t, ht, -⟩ := h.past raw[i] (List.getElem_mem hi) htime
    exact ⟨t, by rw [stamp_timed htime, ht], fun _ => ht, nofun⟩
  | false => exact ⟨_, by rw [stamp_untimed htime, LogLine.time_withTime], nofun, fun _ => rfl⟩

/-- As long as the clock has not come round, the times are the places' own. -/
theorem stampAll_notRound (h : NotRound now raw) : stampAll now raw = stampFrom now 0 raw := by
  refine List.mapIdx_eq_mapIdx_iff.mpr fun i hi => ?_
  cases htime : raw[i].hasTime with
  | true => rw [stamp_timed htime, stamp_timed htime]
  | false => rw [atPlace, Nat.mod_eq_of_lt (h i hi htime), Nat.zero_add]

theorem atPlace_round {i : Nat} (hnow : now < 2 ^ 64) (hi : i < 2 ^ 64) (h : 2 ^ 64 ≤ now + i) :
    atPlace now i + 2 ^ 64 = now + i := by
  rw [atPlace, Nat.mod_eq_sub_mod h, Nat.mod_eq_of_lt (by omega)]
  omega

/-- Once the clock has come round, a line's time is out of order by what the lines around it say. -/
theorem inOrder_comeRound (h : TimesRise now raw) (hnow : now < 2 ^ 64) (hlen : raw.length ≤ 2 ^ 64)
    (hround : ComeRound now raw) :
    InOrder (stampAll now raw) ↔ RoundBetween now raw := by
  have hsome : ∀ line ∈ stampAll now raw, line.time.isSome := by
    intro line hline
    obtain ⟨i, hi, rfl⟩ := List.mem_mapIdx.mp hline
    obtain ⟨t, ht, -⟩ := time_stampAt h hi
    rw [ht]
    rfl
  have hplace : ∀ i, ∀ hi : i < raw.length, raw[i].hasTime = false → atPlace now i + 2 ^ 64 = now + i := fun i hi hfalse =>
    atPlace_round hnow (by omega) (hround i hi hfalse)
  rw [InOrder, and_iff_left hsome, List.pairwise_iff_getElem]
  simp only [stampAll, List.length_mapIdx, List.getElem_mapIdx]
  refine forall_congr' fun i => forall_congr' fun j => forall_congr' fun hi => forall_congr' fun hj =>
    forall_congr' fun hij => ?_
  obtain ⟨s, hs, hsTimed, hsGiven⟩ := time_stampAt h hi
  obtain ⟨t, ht, htTimed, htGiven⟩ := time_stampAt h hj
  have hlater : (stamp raw[i] (some (atPlace now i))).NoLater (stamp raw[j] (some (atPlace now j))) ↔ s ≤ t := by
    rw [LogLine.NoLater, hs, ht]
    constructor
    · rintro ⟨s', hs', t', ht', hle⟩
      rwa [Option.some.inj hs', Option.some.inj ht']
    · exact fun hle => ⟨s, rfl, t, rfl, hle⟩
  rw [hlater]
  cases hfirst : raw[i].hasTime with
  | true =>
    cases hnext : raw[j].hasTime with
    | true =>
      refine iff_of_true ?_ ⟨nofun, nofun⟩
      obtain ⟨s', hs', t', ht', hle⟩ := List.pairwise_iff_getElem.mp h.rising i j hi hj hij hfirst hnext
      rw [hsTimed hfirst] at hs'
      rw [htTimed hnext] at ht'
      rwa [Option.some.inj hs', Option.some.inj ht']
    | false =>
      have hgiven := htGiven hnext
      have hplace := hplace j hj hnext
      rw [hsTimed hfirst]
      constructor
      · exact fun hle => ⟨nofun, fun _ _ => ⟨s, rfl, by omega⟩⟩
      · rintro ⟨-, hbefore⟩
        obtain ⟨s', hs', hle⟩ := hbefore rfl rfl
        obtain rfl := Option.some.inj hs'
        omega
  | false =>
    have hgiven := hsGiven hfirst
    have hplaceFirst := hplace i hi hfirst
    cases hnext : raw[j].hasTime with
    | true =>
      rw [htTimed hnext]
      constructor
      · exact fun hle => ⟨fun _ _ => ⟨t, rfl, by omega⟩, nofun⟩
      · rintro ⟨hafter, -⟩
        obtain ⟨t', ht', hle⟩ := hafter rfl rfl
        obtain rfl := Option.some.inj ht'
        omega
    | false =>
      have hgivenNext := htGiven hnext
      have hplaceNext := hplace j hj hnext
      refine iff_of_true ?_ ⟨nofun, nofun⟩
      omega

/-- The times come out in order, and those that are given apart, exactly if the lines are held so. -/
theorem inOrder_stampAll_iff (h : TimesRise now raw) (hnow : now < 2 ^ 64) (hlen : raw.length ≤ 2 ^ 64) :
    Apart raw (stampAll now raw) ∧ InOrder (stampAll now raw) ↔ Stampable now raw := by
  rw [apart_stampAll, Stampable]
  constructor
  · rintro ⟨hapart, horder⟩
    by_cases hnot : NotRound now raw
    · rw [stampAll_notRound hnot, inOrder_stampFrom_iff h] at horder
      exact Or.inl ⟨hnot, horder⟩
    · -- One that the clock has come round for is not after one that it has not.
      have hround : ComeRound now raw := by
        intro i hi hfirst
        by_contra hlt
        simp only [NotRound, not_forall, Nat.not_lt] at hnot
        obtain ⟨j, hj, hnext, hle⟩ := hnot
        have hlater := hapart i j hi hj (by omega) hfirst hnext
        have hplace := atPlace_round hnow (by omega) hle
        rw [atPlace, Nat.mod_eq_of_lt (by omega)] at hlater
        omega
      exact Or.inr ⟨hround, (inOrder_comeRound h hnow hlen hround).mp horder⟩
  · rintro (⟨hnot, hfirst⟩ | ⟨hround, hbetween⟩)
    · refine ⟨fun i j hi hj hij huntimed hnext => ?_, ?_⟩
      · rw [atPlace, atPlace, Nat.mod_eq_of_lt (hnot i hi huntimed), Nat.mod_eq_of_lt (hnot j hj hnext)]
        omega
      · rw [stampAll_notRound hnot]
        exact (inOrder_stampFrom_iff h).mpr hfirst
    · refine ⟨fun i j hi hj hij huntimed hnext => ?_, (inOrder_comeRound h hnow hlen hround).mpr hbetween⟩
      have hplace := atPlace_round hnow (by omega) (hround i hi huntimed)
      have hplaceNext := atPlace_round hnow (by omega) (hround j hj hnext)
      omega

end

/-! ### What `take_stamped` returns -/

theorem LogBuffer.gathered_sublist (b : LogBuffer) (maxLines maxBytes : Nat) (meanwhile : List Offer) :
    (b.gathered maxLines maxBytes meanwhile).Sublist (b.backlog.lines ++ (b.follower meanwhile).toList) := by
  refine List.Sublist.append (List.take_sublist _ _) ?_
  split
  · exact List.Sublist.refl _
  · exact List.nil_sublist _

theorem LogBuffer.length_gathered_le (b : LogBuffer) (maxLines maxBytes : Nat) (meanwhile : List Offer) :
    (b.gathered maxLines maxBytes meanwhile).length ≤ maxLines := by
  have hfits : (fitting maxLines maxBytes b.backlog.lines) ≤ maxLines := by
    by_cases hzero : fitting maxLines maxBytes b.backlog.lines = 0
    · omega
    · exact (Nat.findGreatest_of_ne_zero rfl hzero).1
  have hpopped : (b.follower meanwhile).toList.length ≤ 1 := by cases b.follower meanwhile <;> simp
  rw [gathered, List.length_append, List.length_take]
  split
  · omega
  · rw [List.length_nil]
    omega

/-- With times that rise to `now`, each line of a batch has a time, and keeps the one that it had. The times are in order,
    and those that are given here apart, exactly when no line that has a time comes after one that has none, but for a first
    line that has none where each time after it is `now` itself; as long as the clock does not come round within the
    batch. -/
theorem batch_in_order_iff (b : LogBuffer) (maxLines : UInt32) (maxBytes : Nat) (now : UInt64) (meanwhile : List Offer)
    (h : TimesRise now.toNat (b.backlog.lines ++ (b.follower meanwhile).toList)) :
    Timed (b.gathered maxLines.toNat maxBytes meanwhile)
      (b.takeStamped maxLines.toNat maxBytes (some now.toNat) meanwhile).1 ∧
      (Apart (b.gathered maxLines.toNat maxBytes meanwhile)
        (b.takeStamped maxLines.toNat maxBytes (some now.toNat) meanwhile).1 ∧
          InOrder (b.takeStamped maxLines.toNat maxBytes (some now.toNat) meanwhile).1 ↔
        Stampable now.toNat (b.gathered maxLines.toNat maxBytes meanwhile)) := by
  have htaken : (b.takeStamped maxLines.toNat maxBytes (some now.toNat) meanwhile).1 =
      stampAll now.toNat (b.gathered maxLines.toNat maxBytes meanwhile) := LogBuffer.takeStamped_fst ..
  have hlen := b.length_gathered_le maxLines.toNat maxBytes meanwhile
  have hmax := maxLines.toNat_lt
  rw [htaken]
  exact ⟨timed_stampAll _ _, inOrder_stampAll_iff (h.sublist
    (b.gathered_sublist maxLines.toNat maxBytes meanwhile)) now.toNat_lt
    (by omega)⟩

/-- A line that was logged before the clock was set, and one that was logged after. -/
def bootAndLater : LogBuffer :=
  ((LogBuffer.withThreshold 8 .info).offers
    [.push (.new "info" "boot"), .push ((LogLine.new "info" "later").withTime 1577836800000001)]).2

theorem bootAndLater_rise : TimesRise 1577836800000005
    (bootAndLater.backlog.lines ++ (bootAndLater.follower []).toList) := by
  have hlines : bootAndLater.backlog.lines ++ (bootAndLater.follower []).toList =
      [.new "info" "boot", (LogLine.new "info" "later").withTime 1577836800000001] := by decide +kernel
  rw [hlines]
  refine ⟨fun line hline htime => ?_, ?_⟩
  · rcases List.mem_pair.mp hline with rfl | rfl
    · cases htime
    · exact ⟨_, LogLine.time_withTime _ _, by omega⟩
  · exact List.pairwise_pair.mpr nofun

theorem batch_in_order_bootAndLater :
    TimesRise 1577836800000005 (bootAndLater.backlog.lines ++ (bootAndLater.follower []).toList) ∧
      (Apart (bootAndLater.gathered 100 3000 []) (bootAndLater.takeStamped 100 3000 (some 1577836800000005) []).1 ∧
          InOrder (bootAndLater.takeStamped 100 3000 (some 1577836800000005) []).1 ↔
        Stampable 1577836800000005 (bootAndLater.gathered 100 3000 [])) :=
  ⟨bootAndLater_rise, (batch_in_order_iff bootAndLater 100 3000 1577836800000005 [] bootAndLater_rise).2⟩

/-- The line that was logged first is shown last. -/
theorem batch_out_of_order :
    TimesRise 1577836800000005 (bootAndLater.backlog.lines ++ (bootAndLater.follower []).toList) ∧
      (bootAndLater.takeStamped 100 3000 (some 1577836800000005) []).1.map LogLine.time =
        [some 1577836800000005, some 1577836800000001] ∧
      ¬ InOrder (bootAndLater.takeStamped 100 3000 (some 1577836800000005) []).1 := by
  have hlines : (bootAndLater.takeStamped 100 3000 (some 1577836800000005) []).1 =
      [(LogLine.new "info" "boot").withTime 1577836800000005, (LogLine.new "info" "later").withTime 1577836800000001] := by
    decide +kernel
  rw [hlines]
  refine ⟨bootAndLater_rise, by simp [LogLine.time_withTime], ?_⟩
  rintro ⟨hpairs, -⟩
  obtain ⟨s, hs, t, ht, hle⟩ := List.pairwise_pair.mp hpairs
  rw [LogLine.time_withTime] at hs ht
  obtain rfl := Option.some.inj hs
  obtain rfl := Option.some.inj ht
  omega

end NervesHub
