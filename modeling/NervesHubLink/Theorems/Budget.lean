import Mathlib.Algebra.Order.BigOperators.Group.List
import NervesHubLink.Bench
import NervesHubLink.Theorems.Batches
import NervesHubLink.Theorems.Stamps

/-! The size of a batch as it is sent: with the times it was given, and the note that joined it. -/

namespace NervesHub
open Keyed

/-! ### Text with nothing to escape -/

def Plain (s : String) : Prop := ∀ c ∈ s.toList, jsonChar c = [c]

instance (s : String) : Decidable (Plain s) := List.decidableBAll (fun c => jsonChar c = [c]) s.toList

theorem Plain.size {s : String} (h : Plain s) : (jsonString s).utf8ByteSize = s.utf8ByteSize + 2 := by
  have hchars : s.toList.flatMap jsonChar = s.toList := by
    calc s.toList.flatMap jsonChar = s.toList.flatMap fun c => [c] := List.flatMap_congr h
      _ = s.toList := List.flatMap_singleton' _
  have hquote : "\"".utf8ByteSize = 1 := by decide
  rw [jsonString, hchars, String.ofList_toList, String.utf8ByteSize_append, String.utf8ByteSize_append, hquote]
  omega

/-- With a comma after each, or one after all. -/
theorem size_intercalate (l : List String) (h : l ≠ []) :
    (",".intercalate l).utf8ByteSize + 1 = (l.map fun s => s.utf8ByteSize + 1).sum := by
  induction l with
  | nil => exact absurd rfl h
  | cons s rest ih =>
    cases rest with
    | nil => simp
    | cons s' rest =>
      have hcomma : ",".utf8ByteSize = 1 := by decide
      have := ih (List.cons_ne_nil _ _)
      rw [String.intercalate_cons_cons, String.utf8ByteSize_append, String.utf8ByteSize_append, List.map_cons,
        List.sum_cons, hcomma]
      omega

theorem Ser.jsonAll_eq (items : List Ser) : Ser.jsonAll items = items.map Ser.json := by
  induction items with
  | nil => rfl
  | cons v rest ih => rw [Ser.jsonAll, ih, List.map_cons]

theorem Ser.jsonEntries_eq (entries : List (String × Ser)) :
    Ser.jsonEntries entries = entries.map fun kv => jsonString kv.1 ++ ":" ++ kv.2.json := by
  induction entries with
  | nil => rfl
  | cons kv rest ih =>
    obtain ⟨k, v⟩ := kv
    rw [Ser.jsonEntries, ih, List.map_cons]

/-- What an entry takes with its comma. -/
def entrySize (kv : String × Ser) : Nat := kv.1.utf8ByteSize + 4 + kv.2.json.utf8ByteSize

theorem size_map {n : Nat} {entries : List (String × Ser)} (hne : entries ≠ []) (hplain : ∀ kv ∈ entries, Plain kv.1) :
    (Ser.map n entries).json.utf8ByteSize = 1 + (entries.map entrySize).sum := by
  have hentries := size_intercalate (Ser.jsonEntries entries) (by rw [Ser.jsonEntries_eq]; simpa using hne)
  have hopen : "\x7b".utf8ByteSize = 1 := by decide
  have hclose : "\x7d".utf8ByteSize = 1 := by decide
  have hcolon : ":".utf8ByteSize = 1 := by decide
  have hsum : (Ser.jsonEntries entries).map (fun s => s.utf8ByteSize + 1) = entries.map entrySize := by
    rw [Ser.jsonEntries_eq, List.map_map]
    refine List.map_congr_left fun kv hkv => ?_
    rw [Function.comp_apply, String.utf8ByteSize_append, String.utf8ByteSize_append, (hplain kv hkv).size,
      hcolon, entrySize]
    omega
  rw [hsum] at hentries
  rw [Ser.json, String.utf8ByteSize_append, String.utf8ByteSize_append, hopen, hclose]
  omega

/-! ### Lines with nothing to escape -/

def LogLine.Plain (line : LogLine) : Prop :=
  NervesHub.Plain line.level ∧ NervesHub.Plain line.message ∧ (∀ timestamp ∈ line.timestamp, NervesHub.Plain timestamp) ∧
    ∀ kv ∈ line.metaPairs, NervesHub.Plain kv.1 ∧ NervesHub.Plain kv.2

/-- What the `meta` of a line takes, with what goes around it: no more than every pair would. -/
theorem size_meta {pairs : List (String × String)} (hne : pairs ≠ []) (hplain : ∀ kv ∈ pairs, Plain kv.1 ∧ Plain kv.2) :
    (Meta.ser pairs).json.utf8ByteSize ≤ 1 + (pairs.map fun kv => kv.1.utf8ByteSize + kv.2.utf8ByteSize + 6).sum := by
  have hkept := Meta.kept_ser pairs
  have hsome := hkept.ne_nil hne
  have hmem : ∀ kv ∈ search (Meta.nextAfter pairs) pairs.length none, kv ∈ pairs := fun kv hkv => hkept.subperm.subset hkv
  rw [Meta.ser, Meta.entriesFrom_eq, size_map]
  · have hsum : (List.map entrySize (List.map (fun kv => (kv.1, Ser.str kv.2))
      (search (Meta.nextAfter pairs) pairs.length none))) =
        (search (Meta.nextAfter pairs) pairs.length none).map fun kv => kv.1.utf8ByteSize + kv.2.utf8ByteSize + 6 := by
      rw [List.map_map]
      refine List.map_congr_left fun kv hkv => ?_
      simp only [Function.comp_apply, entrySize, Ser.json, (hplain kv (hmem kv hkv)).2.size]
      omega
    rw [hsum]
    obtain ⟨l, hperm, hsub⟩ := hkept.subperm
    have hle := (hsub.map fun kv => kv.1.utf8ByteSize + kv.2.utf8ByteSize + 6).sum_le_sum fun n _ => Nat.zero_le n
    rw [(hperm.map _).sum_eq] at hle
    omega
  · simpa using hsome
  · intro kv hkv
    obtain ⟨kv', hkv', rfl⟩ := List.mem_map.mp hkv
    exact (hplain kv' (hmem kv' hkv')).1

/-- What the estimate is for: a line and the comma after it take no more. -/
theorem size_line {line : LogLine} (h : line.Plain) : line.ser.json.utf8ByteSize + 1 ≤ approximateJsonLen line := by
  obtain ⟨hlevel, hmessage, htimestamp, hpairs⟩ := h
  have hkeys : Plain "level" ∧ Plain "message" ∧ Plain "meta" ∧ Plain "timestamp" := by decide
  have hsizes : "level".utf8ByteSize = 5 ∧ "message".utf8ByteSize = 7 ∧ "meta".utf8ByteSize = 4 ∧
    "timestamp".utf8ByteSize = 9 := by decide
  let metaPart : List (String × Ser) := if line.metaPairs.isEmpty then [] else [("meta", Meta.ser line.metaPairs)]
  let timePart : List (String × Ser) := line.timestamp.elim [] fun timestamp => [("timestamp", .str timestamp)]
  have hmeta : (metaPart.map entrySize).sum ≤ 9 + (line.metaPairs.map fun kv =>
    kv.1.utf8ByteSize + kv.2.utf8ByteSize + 6).sum ∧
      ∀ kv ∈ metaPart, Plain kv.1 := by
    cases hempty : line.metaPairs.isEmpty with
    | true => simp [metaPart, hempty]
    | false =>
      have hle := size_meta (List.isEmpty_eq_false_iff.mp hempty) hpairs
      simp only [metaPart, hempty, Bool.false_eq_true, if_false, List.map_singleton, List.sum_singleton, entrySize, hsizes]
      exact ⟨by omega, List.forall_mem_singleton.mpr hkeys.2.2.1⟩
  have htime : (timePart.map entrySize).sum ≤ (line.timestamp.map fun t => t.utf8ByteSize + 16).getD 0 ∧
      ∀ kv ∈ timePart, Plain kv.1 := by
    cases htimestamp' : line.timestamp with
    | none => simp [timePart, htimestamp']
    | some t =>
      simp only [timePart, htimestamp', Option.elim_some, List.map_singleton, List.sum_singleton, entrySize,
        hsizes, Ser.json,
        (htimestamp t htimestamp').size, Option.map_some, Option.getD_some]
      exact ⟨by omega, List.forall_mem_singleton.mpr hkeys.2.2.2⟩
  let entries := [("level", Ser.str line.level), ("message", Ser.str line.message)] ++ metaPart ++ timePart
  have hser : ∃ n, line.ser = .map n entries := by
    refine ⟨_, congrArg (Ser.map _) (congrArg (List.append _) ?_)⟩
    simp only [timePart]
    cases line.timestamp <;> rfl
  have hsize : line.ser.json.utf8ByteSize = 1 + (entries.map entrySize).sum := by
    obtain ⟨n, hser⟩ := hser
    rw [hser]
    refine size_map (by simp [entries]) fun kv hkv => ?_
    rcases List.mem_append.mp hkv with hkv | hkv
    · rcases List.mem_append.mp hkv with hkv | hkv
      · rcases List.mem_pair.mp hkv with rfl | rfl
        · exact hkeys.1
        · exact hkeys.2.1
      · exact hmeta.2 kv hkv
    · exact htime.2 kv hkv
  simp only [entries, List.map_append, List.sum_append, List.map_cons, List.map_nil, List.sum_cons, List.sum_nil, entrySize,
    Ser.json, hlevel.size, hmessage.size, hsizes] at hsize
  rw [approximateJsonLen]
  have h1 := hmeta.1
  have h2 := htime.1
  omega

/-- A batch of such lines takes no more than their estimates and what goes around them: `{"lines":[]}`. -/
theorem size_batch {lines : List LogLine} (hne : lines ≠ []) (h : ∀ line ∈ lines, line.Plain) :
    (LogBatch.ser lines).json.utf8ByteSize + 1 ≤ (lines.map approximateJsonLen).sum + 13 := by
  have hkey : Plain "lines" := by decide
  have hlines : "lines".utf8ByteSize = 5 := by decide
  have hopen : "[".utf8ByteSize = 1 := by decide
  have hclose : "]".utf8ByteSize = 1 := by decide
  have hinter := size_intercalate (Ser.jsonAll (lines.map LogLine.ser)) (by rw [Ser.jsonAll_eq]; simpa using hne)
  have hle : ((Ser.jsonAll (lines.map LogLine.ser)).map fun s => s.utf8ByteSize + 1).sum ≤
      (lines.map approximateJsonLen).sum := by
    rw [Ser.jsonAll_eq, List.map_map, List.map_map]
    exact List.sum_le_sum fun line hline => size_line (h line hline)
  rw [LogBatch.ser, size_map (List.cons_ne_nil _ _) (List.forall_mem_singleton.mpr hkey)]
  simp only [List.map_singleton, List.sum_singleton, entrySize, hlines, Ser.json, String.utf8ByteSize_append, hopen, hclose]
  omega

/-! ### What stamping adds -/

/-- What it adds to the line at place `i`. -/
def stampSize (micros : Option Nat) (i : Nat) (line : LogLine) : Nat :=
  if line.hasTime then 0 else (micros.map fun now => (toString (atPlace now i)).utf8ByteSize + 10).getD 0

theorem approximateJsonLen_stamp (micros : Option Nat) (i : Nat) (line : LogLine) :
    approximateJsonLen (stamp line (micros.map (atPlace · i))) = approximateJsonLen line + stampSize micros i line := by
  have htime : "time".utf8ByteSize = 4 := by decide
  rw [stampSize]
  cases hh : line.hasTime with
  | true => simp [stamp_timed hh]
  | false =>
    cases micros with
    | none => simp [stamp, hh]
    | some now =>
      rw [Option.map_some, stamp_untimed hh, approximateJsonLen, approximateJsonLen]
      simp only [LogLine.withTime, LogLine.addMeta, List.map_append, List.sum_append, List.map_singleton,
        List.sum_singleton, htime,
        Bool.false_eq_true, if_false, Option.map_some, Option.getD_some]
      omega

theorem sum_stamped (micros : Option Nat) (raw : List LogLine) :
    ((raw.mapIdx fun i line => stamp line (micros.map (atPlace · i))).map approximateJsonLen).sum =
      (raw.map approximateJsonLen).sum + (raw.mapIdx (stampSize micros)).sum := by
  induction raw using List.reverseRecOn with
  | nil => rfl
  | append_singleton raw line ih =>
    simp only [List.mapIdx_concat, List.map_append, List.sum_append, List.map_singleton, List.sum_singleton, ih,
      approximateJsonLen_stamp]
    omega

/-- One line may be of any size. Several stay within the budget, and so does their JSON, but for what goes around
    them, if there is nothing to escape. -/
def KeepsBudget (maxBytes : Nat) (lines : List LogLine) : Prop :=
  lines.length ≤ 1 ∨ ((lines.map approximateJsonLen).sum ≤ maxBytes ∧
    ((∀ line ∈ lines, line.Plain) → (LogBatch.ser lines).json.utf8ByteSize ≤ maxBytes + 12))

/-- The lines as they are held leave room for the times that they are given. -/
def LeavesRoom (maxBytes : Nat) (micros : Option Nat) (raw : List LogLine) : Prop :=
  raw.length ≤ 1 ∨ (raw.map approximateJsonLen).sum + (raw.mapIdx (stampSize micros)).sum ≤ maxBytes

/-- A batch keeps its budget exactly when the lines that fit, with what is found after the last of them, leave room
    for the times. -/
theorem batch_within_budget_iff (b : LogBuffer) (maxLines maxBytes : Nat) (micros : Option Nat) (meanwhile : List Offer) :
    KeepsBudget maxBytes (b.takeStamped maxLines maxBytes micros meanwhile).1 ↔
      LeavesRoom maxBytes micros (b.gathered maxLines maxBytes meanwhile) := by
  rw [LogBuffer.takeStamped_fst, KeepsBudget, LeavesRoom, List.length_mapIdx, sum_stamped]
  refine or_congr_right' fun hmany => and_iff_left_of_imp fun hsum hplain => ?_
  rw [← sum_stamped] at hsum
  have hne : (b.gathered maxLines maxBytes meanwhile).mapIdx
      (fun i line => stamp line (micros.map (atPlace · i))) ≠ [] := by
    intro hnil
    have hlen := congrArg List.length hnil
    rw [List.length_mapIdx, List.length_nil] at hlen
    omega
  have hsize := size_batch hne hplain
  omega

/-- Short lines that were logged before the clock was set. -/
def shortLines : LogBuffer :=
  ((LogBuffer.withThreshold 100 .info).offers (List.replicate 68 (.push (.new "info" "")))).2

theorem batch_over_budget :
    ((shortLines.takeStamped logBatchMaxLines logBatchMaxBytes (some 1790000000000000) []).1.map
      approximateJsonLen).sum = 4760 ∧
      ¬ KeepsBudget logBatchMaxBytes (shortLines.takeStamped logBatchMaxLines logBatchMaxBytes
        (some 1790000000000000) []).1 := by
  have hlength : (shortLines.takeStamped logBatchMaxLines logBatchMaxBytes (some 1790000000000000) []).1.length = 68 := by
    decide +kernel
  have hsum : ((shortLines.takeStamped logBatchMaxLines logBatchMaxBytes (some 1790000000000000) []).1.map
      approximateJsonLen).sum = 4760 := by decide +kernel
  have hbudget : logBatchMaxBytes = 3000 := rfl
  refine ⟨hsum, ?_⟩
  rintro (hone | ⟨hle, -⟩)
  · omega
  · omega

end NervesHub
