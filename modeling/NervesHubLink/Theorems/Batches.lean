import NervesHubLink.Lib.Keyed
import NervesHubLink.Link
import Mathlib.Data.String.Basic

/-! A batch of log lines is written straight from the lines. What comes out is what comes out of the value that
the batch would be built as. -/

namespace NervesHub
open Act Prog Keyed

/-! ### Maps as they are built -/

theorem Fields.insert_eq (key : String) (value : Value) (fields : Fields) :
    Fields.insert key value fields = put key value fields := by
  induction fields with
  | nil => rfl
  | cons kv rest ih => rw [Fields.insert, put, ih]

theorem Fields.kept (l : List (String × Value)) : Kept l (Fields.ofList l) := by
  have h := kept_foldl l
  simpa only [Fields.ofList, Fields.insert_eq] using h

theorem Fields.ofList_eq {l fields : List (String × Value)} (h : Kept l fields) : Fields.ofList l = fields :=
  (Fields.kept l).unique h

theorem Ser.toFields_eq (entries : List (String × Ser)) (acc : Fields) :
    Ser.toFields acc entries = (entries.map fun kv => (kv.1, kv.2.toValue)).foldl
      (fun m kv => Fields.insert kv.1 kv.2 m) acc := by
  induction entries generalizing acc with
  | nil => rfl
  | cons kv rest ih =>
    obtain ⟨k, v⟩ := kv
    rw [Ser.toFields, ih]
    rfl

theorem Ser.toValue_map (n : Nat) (entries : List (String × Ser)) :
    (Ser.map n entries).toValue = .obj (entries.map fun kv => (kv.1, kv.2.toValue)) := by
  rw [Ser.toValue, Ser.toFields_eq]
  rfl

theorem Ser.toValues_eq (items : List Ser) : Ser.toValues items = items.map Ser.toValue := by
  induction items with
  | nil => rfl
  | cons v rest ih => rw [Ser.toValues, ih, List.map_cons]

theorem Value.serAll_eq (items : List Value) : Value.serAll items = items.map Value.ser := by
  induction items with
  | nil => rfl
  | cons v rest ih => rw [Value.serAll, ih, List.map_cons]

theorem Value.serFields_eq (fields : Fields) : Value.serFields fields = fields.map fun kv => (kv.1, kv.2.ser) := by
  induction fields with
  | nil => rfl
  | cons kv rest ih =>
    obtain ⟨k, v⟩ := kv
    rw [Value.serFields, ih, List.map_cons]

/-! ### Serializer calls that are kept as they are -/

/-- Each map and each list is as long as it says, with the keys of a map in order, down to strings and whole
    numbers. -/
inductive Ser.Exact : Ser → Prop where
  | unit : Exact .unit
  | bool (b : Bool) : Exact (.bool b)
  | u64 (n : Nat) : Exact (.u64 n)
  | str (s : String) : Exact (.str s)
  | seq {items : List Ser} (hitems : ∀ v ∈ items, Exact v) : Exact (.seq items.length items)
  | map {entries : List (String × Ser)} (hkeys : entries.Pairwise fun a b => a.1 < b.1)
      (hentries : ∀ kv ∈ entries, Exact kv.2) : Exact (.map entries.length entries)

theorem Ser.exact_map {n : Nat} {entries : List (String × Ser)} (hn : entries.length = n)
    (hkeys : (entries.map Prod.fst).Pairwise (· < ·)) (hentries : ∀ kv ∈ entries, kv.2.Exact) : (Ser.map n entries).Exact :=
  hn ▸ .map (List.pairwise_map.mp hkeys) hentries

/-- They are made again of the value that is built from them. -/
theorem Ser.Exact.ser_toValue {s : Ser} (h : s.Exact) : s.toValue.ser = s := by
  induction h with
  | unit => rfl
  | bool b => rfl
  | u64 n => rfl
  | str s => rfl
  | @seq items _ ih =>
    have hitems : items.map (Value.ser ∘ Ser.toValue) = items := by
      conv_rhs => rw [← List.map_id items]
      exact List.map_congr_left ih
    rw [Ser.toValue, Ser.toValues_eq, Value.ser, Value.serAll_eq, List.map_map, List.length_map, hitems]
  | @map entries hkeys _ ih =>
    have hentries : entries.map (fun kv => (kv.1, kv.2.toValue.ser)) = entries := by
      conv_rhs => rw [← List.map_id entries]
      exact List.map_congr_left fun kv hkv => by rw [ih kv hkv]; rfl
    have hfields : Fields.ofList (entries.map fun kv => (kv.1, kv.2.toValue)) = entries.map fun kv =>
        (kv.1, kv.2.toValue) :=
      Fields.ofList_eq (kept_self (List.pairwise_map.mpr hkeys))
    rw [Ser.toValue_map, Value.obj, hfields, Value.ser, Value.serFields_eq, List.map_map, List.length_map]
    exact congrArg _ hentries

/-! ### The `meta` of a line -/

namespace Meta

theorem nextAfter_concat (pairs : List (String × String)) (kv : String × String) (after : Option String) :
    nextAfter (pairs ++ [kv]) after =
      if after.any (fun a => decide (kv.1 ≤ a)) then nextAfter pairs after
      else match nextAfter pairs after with
        | some (smallest, v) => if smallest < kv.1 then some (smallest, v) else some kv
        | none => some kv := by
  rw [nextAfter, List.foldl_append]
  rfl

theorem nextAfter_isNext (pairs : List (String × String)) (after : Option String) :
    IsNext pairs after (nextAfter pairs after) := by
  induction pairs using List.reverseRecOn with
  | nil => exact isNext_nil after
  | append_singleton pairs kv ih =>
    have hpast : after.any (fun a => decide (kv.1 ≤ a)) = true ↔ ¬ Past after kv.1 := by
      cases after with
      | none => exact iff_of_false (by simp) (not_not.mpr nofun)
      | some a =>
        rw [Option.any_some, decide_eq_true_iff, ← not_lt]
        exact not_congr ⟨fun h b hb => (Option.some.inj hb) ▸ h, fun h => h a rfl⟩
    rw [nextAfter_concat]
    split_ifs with hkv
    · exact ih.skip (hpast.mp hkv)
    · have hkv : Past after kv.1 := not_not.mp (mt hpast.mpr hkv)
      rcases hnext : nextAfter pairs after with _ | ⟨smallest, v⟩
      · rw [hnext] at ih
        exact ih.take hkv nofun
      · rw [hnext] at ih
        by_cases hlt : smallest < kv.1
        · simp only [if_pos hlt]
          exact ih.keep hlt
        · simp only [if_neg hlt]
          exact ih.take hkv fun found hfound => (Option.some.inj hfound) ▸ not_lt.mp hlt

example : nextAfter [("b", "1"), ("a", "2"), ("b", "3")] (some "a") = some ("b", "3") := by decide

theorem entriesFrom_eq (pairs : List (String × String)) (n : Nat) (after : Option String) :
    entriesFrom pairs n after = (search (nextAfter pairs) n after).map fun kv => (kv.1, .str kv.2) := by
  induction n generalizing after with
  | zero => rfl
  | succ n ih =>
    rw [entriesFrom, search]
    rcases nextAfter pairs after with _ | ⟨key, value⟩
    · rfl
    · simp only [List.map_cons, ih]

theorem distinct_eq (pairs : List (String × String)) (earlier : List String) :
    distinct pairs earlier = ((pairs.map Prod.fst).toFinset \ earlier.toFinset).card := by
  induction pairs generalizing earlier with
  | nil => simp [distinct]
  | cons kv rest ih =>
    obtain ⟨key, value⟩ := kv
    rw [distinct, ih, List.map_cons, List.toFinset_cons, List.toFinset_cons]
    by_cases hkey : key ∈ earlier.toFinset
    · have hcontains : earlier.contains key = true := by simpa using hkey
      rw [if_pos hcontains, Nat.zero_add, Finset.insert_sdiff_of_mem _ hkey, Finset.insert_eq_of_mem hkey]
    · have hcontains : ¬ earlier.contains key = true := by simpa using hkey
      have hsplit : insert key (rest.map Prod.fst).toFinset \ earlier.toFinset =
          insert key ((rest.map Prod.fst).toFinset \ insert key earlier.toFinset) := by
        ext k
        by_cases hk : k = key
        · subst hk
          simp only [Finset.mem_sdiff, Finset.mem_insert_self, true_and]
          exact iff_of_true hkey trivial
        · simp [hk]
      rw [if_neg hcontains, hsplit, Finset.card_insert_of_notMem (by simp), Nat.add_comm]

/-- The search has one turn for each key and one to spare, or more. -/
theorem kept_entries (pairs : List (String × String)) (n : Nat) :
    Kept pairs (search (nextAfter pairs) (distinct pairs [] + n) none) := by
  refine kept_search (nextAfter_isNext pairs) ?_
  rw [distinct_eq, count, List.toFinset_nil, Finset.sdiff_empty]
  exact Nat.le_add_right _ _

theorem length_entriesFrom (pairs : List (String × String)) (n : Nat) :
    (entriesFrom pairs (distinct pairs [] + n) none).length = distinct pairs [] := by
  rw [entriesFrom_eq, List.length_map, (kept_entries pairs n).length, distinct_eq, count, List.toFinset_nil,
    Finset.sdiff_empty]

theorem mem_entriesFrom (pairs : List (String × String)) (n : Nat) (key : String) (v : Ser) :
    (key, v) ∈ entriesFrom pairs (distinct pairs [] + n) none ↔ ∃ value, last pairs key = some value ∧ v = .str value := by
  rw [entriesFrom_eq, List.mem_map]
  constructor
  · rintro ⟨⟨key', value⟩, hmem, heq⟩
    obtain ⟨rfl, rfl⟩ := Prod.mk.inj heq
    exact ⟨value, ((kept_entries pairs n).entries key' value).mp hmem, rfl⟩
  · rintro ⟨value, hvalue, rfl⟩
    exact ⟨(key, value), ((kept_entries pairs n).entries key value).mpr hvalue, rfl⟩

theorem distinct_le (pairs : List (String × String)) : distinct pairs [] ≤ pairs.length := by
  rw [distinct_eq, List.toFinset_nil, Finset.sdiff_empty, ← List.length_map Prod.fst]
  exact List.toFinset_card_le _

/-- The turns that `Serialize for Meta` is given are enough. -/
theorem kept_ser (pairs : List (String × String)) : Kept pairs (search (nextAfter pairs) pairs.length none) := by
  have h := kept_entries pairs (pairs.length - distinct pairs [])
  rwa [Nat.add_sub_cancel' (distinct_le pairs)] at h

theorem ser_eq (pairs : List (String × String)) :
    Meta.ser pairs = .map (Meta.entriesFrom pairs pairs.length none).length (Meta.entriesFrom pairs pairs.length none) := by
  have h := length_entriesFrom pairs (pairs.length - distinct pairs [])
  rw [Nat.add_sub_cancel' (distinct_le pairs)] at h
  rw [Meta.ser, h]

theorem ser_exact (pairs : List (String × String)) : (Meta.ser pairs).Exact := by
  rw [ser_eq, entriesFrom_eq]
  refine .map (List.pairwise_map.mpr (kept_ser pairs).ascending) fun kv hkv => ?_
  obtain ⟨kv, -, rfl⟩ := List.mem_map.mp hkv
  exact .str kv.2

/-- The map collected from the pairs. -/
def value (pairs : List (String × String)) : Value := .obj (pairs.map fun kv => (kv.1, .string kv.2))

theorem toValue_ser (pairs : List (String × String)) : (Meta.ser pairs).toValue = Meta.value pairs := by
  have hkept := (kept_ser pairs).map Value.string
  have hself := kept_self hkept.ascending
  rw [Meta.ser, Ser.toValue_map, Meta.value, Value.obj, Value.obj, Fields.ofList_eq hkept, entriesFrom_eq, List.map_map]
  exact congrArg _ (Fields.ofList_eq hself)

end Meta

/-! ### Lines -/

/-- A line built as a value, field by field. -/
def LogLine.value (line : LogLine) : Value :=
  .obj ([("level", .string line.level), ("message", .string line.message)] ++
    (if line.metaPairs.isEmpty then [] else [("meta", Meta.value line.metaPairs)]) ++
    line.timestamp.toList.map fun timestamp => ("timestamp", .string timestamp))

/-- A batch built as a value: `{"lines": [..]}`. -/
def LogBatch.value (lines : List LogLine) : Value := .obj [("lines", .array (lines.map LogLine.value))]

theorem LogLine.toValue_ser (line : LogLine) : line.ser.toValue = line.value := by
  rw [LogLine.ser, Ser.toValue_map, LogLine.value]
  congr 1
  cases hmeta : line.metaPairs.isEmpty <;> cases htime : line.timestamp <;> simp [Meta.toValue_ser, Ser.toValue]

theorem LogLine.ser_exact (line : LogLine) : line.ser.Exact := by
  have hlevel := Ser.Exact.str line.level
  have hmessage := Ser.Exact.str line.message
  have hpairs := Meta.ser_exact line.metaPairs
  rw [LogLine.ser]
  cases hmeta : line.metaPairs.isEmpty <;> cases htime : line.timestamp
  all_goals
    refine Ser.exact_map (by simp) ?_ ?_
    · simp only [Bool.false_eq_true, if_true, if_false, List.map_append, List.map_cons, List.map_nil]
      decide
  · simpa using ⟨hlevel, hmessage, hpairs⟩
  · simpa using ⟨hlevel, hmessage, hpairs, Ser.Exact.str _⟩
  · simpa using ⟨hlevel, hmessage⟩
  · simpa using ⟨hlevel, hmessage, Ser.Exact.str _⟩

theorem LogBatch.ser_exact (lines : List LogLine) : (LogBatch.ser lines).Exact := by
  have hlines : (Ser.seq (lines.map LogLine.ser).length (lines.map LogLine.ser)).Exact := by
    refine .seq fun v hv => ?_
    obtain ⟨line, -, rfl⟩ := List.mem_map.mp hv
    exact line.ser_exact
  rw [List.length_map] at hlines
  exact Ser.exact_map rfl (List.pairwise_singleton _ _) (List.forall_mem_singleton.mpr hlines)

theorem LogBatch.toValue_ser (lines : List LogLine) : (LogBatch.ser lines).toValue = LogBatch.value lines := by
  have hlines : Ser.toValue ∘ LogLine.ser = LogLine.value := funext LogLine.toValue_ser
  rw [LogBatch.ser, Ser.toValue_map, LogBatch.value, List.map_singleton, Ser.toValue, Ser.toValues_eq, List.map_map, hlines]

/-- The calls made of the lines are those that the value makes. -/
theorem LogBatch.ser_value (lines : List LogLine) : (LogBatch.value lines).ser = LogBatch.ser lines := by
  rw [← LogBatch.toValue_ser, (LogBatch.ser_exact lines).ser_toValue]

/-! ### What goes out -/

variable {σ : Type} [Serde]

theorem encodeFrame_batch (serializer : Serializer) (joinRef reference : Option String) (topic event : String)
    (lines : List LogLine) : encodeFrame serializer ⟨joinRef, reference, topic, event, .batch lines⟩ =
      encodeFrame serializer ⟨joinRef, reference, topic, event, .value (LogBatch.value lines)⟩ := by
  have hser : Envelope.ser ⟨joinRef, reference, topic, event, .batch lines⟩ =
      Envelope.ser ⟨joinRef, reference, topic, event, .value (LogBatch.value lines)⟩ := by
    simp only [Envelope.ser, Payload.ser, LogBatch.ser_value]
  cases serializer <;> simp only [encodeFrame, hser]

/-- The frames of a record, as they were written. -/
def framesOf (serializer : Serializer) (t : List Event) : List Frame :=
  t.filterMap fun
    | .sent m _ => some (encodeFrame serializer m)
    | _ => none

/-- The same end, with the same state left behind and the same frames written: what is different is only how
    the payloads are noted down. -/
structure Alike {α : Type} (serializer : Serializer) (x y : Outcome Error α × World σ) : Prop where
  outcome : x.1 = y.1
  env : x.2.env = y.2.env
  own : x.2.own = y.2.own
  frames : framesOf serializer x.2.trace = framesOf serializer y.2.trace

theorem write_alike (agent : Agent σ) {m m' : Envelope}
    (h : ∀ serializer, encodeFrame serializer m = encodeFrame serializer m')
    (serializer : Serializer) (s : World σ) : Alike serializer (Link.write agent m s) (Link.write agent m' s) := by
  have hframes : ∀ (r : Except Error Unit), framesOf serializer (.sent m r :: s.trace) =
      framesOf serializer (.sent m' r :: s.trace) :=
    fun r => by simp [framesOf, h]
  simp only [Link.write, NervesHub.link, gets_bind_apply, h]
  cases hsend : (agent.platform.send (encodeFrame s.own.link.config.serializer m') s.env).1 with
  | ok a =>
    rw [tryCall_ok hsend, tryCall_ok hsend]
    exact ⟨rfl, rfl, rfl, hframes _⟩
  | error e =>
    rw [tryCall_error hsend, tryCall_error hsend]
    exact ⟨rfl, rfl, rfl, hframes _⟩

namespace Link

/-- The lines sent with every payload built as a value. -/
def sendBuiltLogs (agent : Agent σ) (lines : List LogLine) : Run σ Unit := do
  let l ← link
  sendExtension agent (l.extensions.logs lines)

/-- Nobody can tell the one from the other: the platform is given the same frames, and answers as it does. -/
theorem sendLogs_alike (agent : Agent σ) (lines : List LogLine) (serializer : Serializer) (s : World σ) :
    Alike serializer (sendLogs agent lines s) (sendBuiltLogs agent lines s) := by
  by_cases hbatch : (!lines.isEmpty && s.own.link.extensions.loggingBatched) = true
  · obtain ⟨hlines, hbatched⟩ := Bool.and_eq_true_iff.mp hbatch
    have hattached : s.own.link.extensions.isAttached loggingKey = true := (Bool.and_eq_true_iff.mp hbatched).1
    have hsome : s.own.link.extensions.logBatch lines = some lines := if_pos hbatch
    have hlogs : s.own.link.extensions.logs lines = [.send event.loggingSend (LogBatch.value lines)] := by
      simp only [Bool.not_eq_true'] at hlines
      simp [Extensions.logs, hlines, hattached, hbatched, LogBatch.toValue_ser]
    let s' : World σ := { s with own := { s.own with link := { s.own.link with refs := s.own.link.refs.nextRef.2 } } }
    let m : Payload → Envelope := fun payload =>
      ⟨s.own.link.extensionsJoinRef, some s.own.link.refs.nextRef.1, extensionsTopic, event.loggingSend, payload⟩
    have hdirect : sendLogs agent lines s = write agent (m (.batch lines)) s' := by
      simp only [sendLogs, NervesHub.link, gets_bind_apply, hsome]
      rfl
    have hbuilt : sendBuiltLogs agent lines s = (write agent (m (.value (LogBatch.value lines))) >>= fun _ =>
        pure ()) s' := by
      simp only [sendBuiltLogs, NervesHub.link, gets_bind_apply, hlogs]
      rfl
    rw [hdirect, hbuilt, bind_unit]
    exact write_alike agent (fun serializer => encodeFrame_batch serializer _ _ _ _ lines) serializer s'
  · have hnone : s.own.link.extensions.logBatch lines = none := if_neg hbatch
    simp only [sendLogs, sendBuiltLogs, NervesHub.link, gets_bind_apply, hnone]
    exact ⟨rfl, rfl, rfl, rfl⟩

end Link

/-- A batch is written as its value would be, whatever the lines: to the last byte, with each map as long as it
    says, its keys in order, and the last value of a repeated key. -/
theorem batch_written_as_value (lines : List LogLine) :
    (LogBatch.ser lines).toValue = LogBatch.value lines ∧ (LogBatch.value lines).ser = LogBatch.ser lines ∧
      (LogBatch.ser lines).Exact ∧
      (∀ (pairs : List (String × String)) (n : Nat),
        (Meta.entriesFrom pairs (Meta.distinct pairs [] + n) none).length = Meta.distinct pairs [] ∧
          ∀ (key : String) (v : Ser), (key, v) ∈ Meta.entriesFrom pairs (Meta.distinct pairs [] + n) none ↔
            ∃ value, last pairs key = some value ∧ v = .str value) ∧
      (∀ (serializer : Serializer) (joinRef reference : Option String),
        encodeFrame serializer ⟨joinRef, reference, extensionsTopic, event.loggingSend, .batch lines⟩ =
          encodeFrame serializer ⟨joinRef, reference, extensionsTopic, event.loggingSend, .value (LogBatch.value lines)⟩) ∧
      ∀ (σ : Type) (agent : Agent σ) (serializer : Serializer) (s : World σ),
        Alike serializer (Link.sendLogs agent lines s) (Link.sendBuiltLogs agent lines s) := by
  refine ⟨LogBatch.toValue_ser lines, LogBatch.ser_value lines, LogBatch.ser_exact lines, ?_, ?_, ?_⟩
  · intro pairs n
    exact ⟨Meta.length_entriesFrom pairs n, Meta.mem_entriesFrom pairs n⟩
  · intro serializer joinRef reference
    exact encodeFrame_batch serializer joinRef reference _ _ lines
  · intro σ agent serializer s
    exact Link.sendLogs_alike agent lines serializer s

end NervesHub
