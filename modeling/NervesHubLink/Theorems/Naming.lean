import NervesHubLink.AppDesc

/-! Naming the project in an image: what changes, what does not, whether the descriptor is found again, and what the
device that runs the image tells NervesHub. -/

namespace NervesHub

/-- A name as far as a field of C characters holds it. -/
def upToNul (s : String) : String := String.ofList (s.toList.takeWhile (· ≠ '\x00'))

theorem findDescriptor_eq_ok {data : List UInt8} {base : Nat} :
    findDescriptor data = .ok base ↔ ∀ i, Occurs.At appDescMagic data i ↔ i = base := by
  rw [← Occurs.findAll_eq_singleton]
  unfold findDescriptor
  split
  · rename_i h
    simp [h]
  · rename_i hit h
    simp [h]
  · rename_i h
    constructor
    · intro he
      cases he
    · exact fun h' => absurd h' (h base)

theorem writeField_ok {data out : List UInt8} {base offset : Nat} {value : String}
    (h : writeField data base offset value = .ok out) :
    (asBytes value).length < fieldSize ∧
      out = data.take (base + offset) ++ (asBytes value).rightpad fieldSize 0 ++ data.drop (base + offset + fieldSize) := by
  unfold writeField at h
  simp only at h
  split at h
  · cases h
  · rename_i hlt
    exact ⟨Nat.lt_of_not_le hlt, (Except.ok.inj h).symm⟩

theorem length_padded {bytes : List UInt8} (h : bytes.length < fieldSize) :
    (bytes.rightpad fieldSize 0).length = fieldSize := by
  simp [List.rightpad]
  omega

/-- A padded field reads up to its first zero as what is padded does. -/
theorem takeWhile_padded (bytes : List UInt8) (n : Nat) (h : bytes.length < n) :
    (bytes.rightpad n 0).takeWhile (· ≠ 0) = bytes.takeWhile (· ≠ 0) := by
  have hzeros : (List.replicate (n - bytes.length) (0 : UInt8)).takeWhile (· ≠ 0) = [] := by
    obtain ⟨k, hk⟩ : ∃ k, n - bytes.length = k + 1 := ⟨n - bytes.length - 1, by omega⟩
    rw [hk, List.replicate_succ]
    rfl
  rw [List.rightpad, List.takeWhile_append]
  split
  · rename_i hlen
    rw [hzeros, List.append_nil]
    exact (List.IsPrefix.eq_of_length (List.takeWhile_prefix _) hlen).symm
  · rfl

section
variable {data out : List UInt8} {base offset : Nat} {value : String}

/-- The field holds the value, and a zero after it. -/
theorem fieldAt_written (h : writeField data base offset value = .ok out) (hreach : base + offset ≤ data.length) :
    fieldAt out base offset = (asBytes value).rightpad fieldSize 0 := by
  obtain ⟨hlt, rfl⟩ := writeField_ok h
  have htake : (data.take (base + offset)).length = base + offset := by simp; omega
  rw [fieldAt, List.append_assoc, List.drop_left' htake, List.take_left' (length_padded hlt)]

theorem getElem?_written (h : writeField data base offset value = .ok out) (hreach : base + offset ≤ data.length)
    {i : Nat} (hi : i < base + offset ∨ base + offset + fieldSize ≤ i) : out[i]? = data[i]? := by
  obtain ⟨hlt, rfl⟩ := writeField_ok h
  have htake : (data.take (base + offset)).length = base + offset := by simp; omega
  have hpad := length_padded hlt
  rcases hi with hi | hi
  · rw [List.append_assoc, List.getElem?_append_left (by omega), List.getElem?_take, if_pos hi]
  · rw [List.getElem?_append_right (by rw [List.length_append]; omega), List.getElem?_drop, List.length_append, htake, hpad]
    congr 1
    omega

theorem length_written (h : writeField data base offset value = .ok out) (hreach : base + offset ≤ data.length) :
    out.length = max data.length (base + offset + fieldSize) := by
  obtain ⟨hlt, rfl⟩ := writeField_ok h
  simp only [List.length_append, List.length_take, List.length_drop, length_padded hlt]
  omega

/-- Another field is as it was. -/
theorem fieldAt_other (h : writeField data base offset value = .ok out) (hreach : base + offset ≤ data.length) (other : Nat)
    (ho : other + fieldSize ≤ offset ∨ offset + fieldSize ≤ other) : fieldAt out base other = fieldAt data base other := by
  refine List.ext_getElem? fun i => ?_
  rw [fieldAt, fieldAt, List.getElem?_take, List.getElem?_take]
  split
  · rw [List.getElem?_drop, List.getElem?_drop]
    exact getElem?_written h hreach (by omega)
  · rfl

/-- Writing again is writing the last value only. -/
theorem writeField_again (h : writeField data base offset value = .ok out) (hreach : base + offset ≤ data.length)
    (again : String) : writeField out base offset again = writeField data base offset again := by
  obtain ⟨hlt, rfl⟩ := writeField_ok h
  have htake : (data.take (base + offset)).length = base + offset := by simp; omega
  have hpad := length_padded hlt
  unfold writeField
  simp only
  split
  · rfl
  · have hfront : (data.take (base + offset) ++ (asBytes value).rightpad fieldSize 0).length =
        base + offset + fieldSize := by
      rw [List.length_append, htake, hpad]
    rw [List.drop_left' hfront, List.append_assoc (data.take _), List.take_left' htake]

/-- After the value the field is zeros. -/
theorem getElem?_padding (h : writeField data base offset value = .ok out) (hreach : base + offset ≤ data.length) {k : Nat}
    (hle : base + offset + (asBytes value).length ≤ k) (hlt : k < base + offset + fieldSize) : out[k]? = some 0 := by
  obtain ⟨hlen, rfl⟩ := writeField_ok h
  have htake : (data.take (base + offset)).length = base + offset := by simp; omega
  have hpad := length_padded hlen
  rw [List.getElem?_append_left (by rw [List.length_append]; omega), List.getElem?_append_right (by omega), htake,
    List.rightpad,
    List.getElem?_append_right (by omega), List.getElem?_replicate, if_pos (by omega)]

/-- What surrounds the field where the name begins, with the name. -/
def namePlace (data : List UInt8) (base : Nat) (name : String) : List UInt8 :=
  (data.drop (base + projectNameOffset - 3)).take 3 ++ asBytes name

/-- The descriptor's magic number is found again, and nowhere else, unless it came into being where the name begins. -/
theorem findDescriptor_written (hfound : findDescriptor data = .ok base)
    (h : writeField data base projectNameOffset value = .ok out) (hreach : base + projectNameOffset ≤ data.length) :
    findDescriptor out = .ok base ↔ ∀ i, ¬ Occurs.At appDescMagic (namePlace data base value) i := by
  have hlen : appDescMagic.length = 4 := rfl
  have hdata := findDescriptor_eq_ok.mp hfound
  obtain ⟨hlt, hout⟩ := writeField_ok h
  set start := base + projectNameOffset with hstart
  have hoffset : projectNameOffset = 48 := rfl
  -- The front is the front of the old data, and the name with three bytes before it.
  obtain ⟨first, hfirst⟩ : ∃ first, first = data.take (start - 3) := ⟨_, rfl⟩
  have hfirstLen : first.length = start - 3 := by rw [hfirst, List.length_take]; omega
  have hfront : data.take start = first ++ (data.drop (start - 3)).take 3 := by
    rw [hfirst, ← List.take_add]
    congr 1
  have hat_front : ∀ {i}, i + 4 ≤ start → (Occurs.At appDescMagic out i ↔ Occurs.At appDescMagic data i) := by
    intro i hi
    have htake : (data.take start).length = start := by simp; omega
    have hold : Occurs.At appDescMagic (data.take start ++ data.drop start) i ↔
        Occurs.At appDescMagic (data.take start) i :=
      Occurs.at_append_left (by omega)
    rw [hout, List.append_assoc, Occurs.at_append_left (by omega), ← hold, List.take_append_drop]
  have hat_name : ∀ {i}, i + 4 ≤ (namePlace data base value).length →
      (Occurs.At appDescMagic out (start - 3 + i) ↔ Occurs.At appDescMagic (namePlace data base value) i) := by
    intro i hi
    have hshape : out = first ++ (namePlace data base value ++
        (List.replicate (fieldSize - (asBytes value).length) 0 ++ data.drop (start + fieldSize))) := by
      rw [hout, hfront, namePlace, List.rightpad]
      simp only [List.append_assoc, ← hstart]
    rw [hshape, ← hfirstLen, Occurs.at_append_right, Occurs.at_append_left hi]
  have hat_back : ∀ {i}, start + fieldSize ≤ i → (Occurs.At appDescMagic out i ↔ Occurs.At appDescMagic data i) := by
    intro i hi
    by_cases hshort : data.length < start + fieldSize
    · -- An image that ends within the field ends with it.
      have hlen := length_written h hreach
      refine iff_of_false (fun hat => ?_) fun hat => ?_
      · have := hat.bound
        omega
      · have := hat.bound
        omega
    obtain ⟨k, rfl⟩ : ∃ k, i = start + fieldSize + k := ⟨i - (start + fieldSize), by omega⟩
    have hnew : (data.take start ++ (asBytes value).rightpad fieldSize 0).length = start + fieldSize := by
      rw [List.length_append, length_padded hlt, List.length_take]
      omega
    have hold : (data.take (start + fieldSize)).length = start + fieldSize := by simp; omega
    have hsplit := Occurs.at_append_right appDescMagic (data.take (start + fieldSize)) (data.drop (start + fieldSize)) k
    rw [List.take_append_drop, hold] at hsplit
    rw [hsplit, hout]
    have hat := Occurs.at_append_right appDescMagic (data.take start ++ (asBytes value).rightpad fieldSize 0)
      (data.drop (start + fieldSize)) k
    rwa [hnew] at hat
  have hlenName : (namePlace data base value).length = 3 + (asBytes value).length := by
    rw [namePlace, List.length_append, List.length_take, List.length_drop]
    omega
  rw [findDescriptor_eq_ok]
  constructor
  · intro hall i hat
    have hbound := hat.bound
    have := (hall _).mp ((hat_name (by omega)).mpr hat)
    omega
  · intro hno i
    constructor
    · intro hat
      by_cases hbefore : i + 4 ≤ start
      · exact (hdata i).mp ((hat_front hbefore).mp hat)
      by_cases hafter : start + fieldSize ≤ i
      · exact (hdata i).mp ((hat_back hafter).mp hat)
      by_cases hname : i + 4 ≤ start + (asBytes value).length
      · have hi : start - 3 + (i - (start - 3)) = i := by omega
        exact absurd ((hat_name (by omega)).mp (hi.symm ▸ hat)) (hno _)
      · -- It would stand over one of the zeros.
        have hzero : out[max i (start + (asBytes value).length)]? = some 0 :=
          getElem?_padding h hreach (by omega) (by omega)
        exact absurd hat (Occurs.not_at_of_getElem? (by decide) (by omega) (by omega) hzero)
    · rintro rfl
      exact (hat_front (by omega)).mpr ((hdata _).mpr rfl)

theorem readField_written (h : writeField data base offset value = .ok out) (hreach : base + offset ≤ data.length) :
    readField out base offset = upToNul value := by
  rw [readField, fieldAt_written h hreach, takeWhile_padded _ _ (writeField_ok h).1]
  exact Utf8.lossy_takeWhile value

end

/-! ### The script -/

section
variable {args : ScriptArgs} {data out : List UInt8} {printed : Description}

theorem setAppDesc_ok (h : setAppDesc args data = .ok (printed, some out)) :
    ∃ name base, args.projectName = some name ∧ name ≠ "" ∧ findDescriptor data = .ok base ∧ printed = describe data base ∧
      writeField data base projectNameOffset name = .ok out := by
  unfold setAppDesc at h
  cases hfound : findDescriptor data with
  | error e =>
    rw [hfound] at h
    cases h
  | ok base =>
    rw [hfound] at h
    simp only [bind, Except.bind, pure, Except.pure] at h
    split at h
    · cases h
    · split at h
      · cases h
      · rename_i name hname
        obtain ⟨hname, hne⟩ := Option.filter_eq_some_iff.mp hname
        cases hwrite : writeField data base projectNameOffset name with
        | error e =>
          rw [hwrite] at h
          cases h
        | ok written =>
          rw [hwrite] at h
          cases h
          exact ⟨name, base, hname, by simpa using hne, rfl, rfl, hwrite⟩

theorem setAppDesc_named {base : Nat} {name : String} (hfound : findDescriptor data = .ok base) (hname : name ≠ "") :
    (setAppDesc ⟨some name, false⟩ data).map (·.2) = (writeField data base projectNameOffset name).map some := by
  unfold setAppDesc
  rw [hfound]
  simp only [bind, Except.bind, pure, Except.pure, Option.filter, hname, ne_eq, not_false_eq_true, decide_true, if_true,
    Bool.false_eq_true,
    if_false]
  cases writeField data base projectNameOffset name <;> rfl

/-- In an image that reaches to the name, the script changes that and not a byte more; if the image ended within the name,
    it ends with it. The name reads as it was given, up to a NUL. The script finds its way in the image again unless the
    name completes a second magic number, and then naming the project again is as if it had not been named before. -/
theorem project_named (h : setAppDesc args data = .ok (printed, some out))
    (hreach : printed.base + projectNameOffset ≤ data.length) :
    ∃ name, args.projectName = some name ∧ out.length = max data.length (printed.base + projectNameOffset + fieldSize) ∧
      (∀ i, i < printed.base + projectNameOffset ∨ printed.base + projectNameOffset + fieldSize ≤ i → out[i]? = data[i]?) ∧
      readField out printed.base projectNameOffset = upToNul name ∧
      (findDescriptor out = .ok printed.base ↔ ∀ i, ¬ Occurs.At appDescMagic (namePlace data printed.base name) i) ∧
      (findDescriptor out = .ok printed.base → ∀ again, again ≠ "" →
        (setAppDesc ⟨some again, false⟩ out).map (·.2) = (setAppDesc ⟨some again, false⟩ data).map (·.2)) := by
  obtain ⟨name, base, hname, -, hfound, rfl, hwrite⟩ := setAppDesc_ok h
  refine ⟨name, hname, length_written hwrite hreach, fun i => getElem?_written hwrite hreach,
    readField_written hwrite hreach,
    findDescriptor_written hfound hwrite hreach, fun hagain again hne => ?_⟩
  rw [setAppDesc_named hagain hne, setAppDesc_named hfound hne, describe, writeField_again hwrite hreach]

/-- What the metadata says under a name of its own. -/
theorem joinParams_get (md : FirmwareMetadata) (version : String) (downloading : Option String) (boot : BootReport) :
    (md.joinParams version downloading boot).get "esp_idf_project_name" = some (.string md.projectName) ∧
      (md.joinParams version downloading boot).get "esp_idf_version" = some (.string md.version) ∧
      (md.joinParams version downloading boot).get "esp_idf_ver" = some (.string md.idfVer) := by
  unfold FirmwareMetadata.joinParams
  refine ⟨?_, ?_, ?_⟩
  all_goals
    rw [Value.get_set (by decide)]
    cases downloading with
    | none => exact (Value.get_obj (by simp)).mpr (by simp)
    | some uuid =>
      rw [Value.get_set (by decide)]
      exact (Value.get_obj (by simp)).mpr (by simp)

theorem cstr_fieldAt (data : List UInt8) (base offset : Nat) :
    cstr (fieldAt data base offset) = trim (readField data base offset) := rfl

/-- What a device joins with that runs an image in which the project was named. -/
structure JoinsNamed (md : FirmwareMetadata) (name : String) (printed : Description) (apiVersion : String)
    (downloading : Option String) (boot : BootReport) : Prop where
  project : (md.joinParams apiVersion downloading boot).get "esp_idf_project_name" = some (.string (trim (upToNul name)))
  version : (md.joinParams apiVersion downloading boot).get "esp_idf_version" = some (.string (trim printed.version))
  idfVer : (md.joinParams apiVersion downloading boot).get "esp_idf_ver" = some (.string (trim printed.idfVer))

/-- The device that runs the image joins under the name that the script was given, less the spaces around it and what stands
    after a NUL, and with the versions that were there before. -/
theorem device_named (h : setAppDesc args data = .ok (printed, some out))
    (hreach : printed.base + projectNameOffset ≤ data.length)
    (idf : EspApp) {desc : EspAppDesc} (hdesc : idf.appDescription = some desc)
    (hproject : desc.projectName = fieldAt out printed.base projectNameOffset)
    (hversion : desc.version = fieldAt out printed.base versionOffset)
    (hidf : desc.idfVer = fieldAt out printed.base idfVerOffset)
    {md : FirmwareMetadata} (hmd : runningFirmware idf = .ok md) :
    ∃ name, args.projectName = some name ∧ ∀ apiVersion downloading boot,
      JoinsNamed md name printed apiVersion downloading boot := by
  obtain ⟨name, base, hname, -, -, rfl, hwrite⟩ := setAppDesc_ok h
  unfold runningFirmware at hmd
  rw [hdesc] at hmd
  cases hchip : runningChipId idf with
  | error e =>
    rw [hchip] at hmd
    cases hmd
  | ok chipId =>
    rw [hchip] at hmd
    obtain rfl := Except.ok.inj hmd
    have hnamed : cstr desc.projectName = trim (upToNul name) := by
      rw [hproject, cstr_fieldAt]
      exact congrArg trim (readField_written hwrite hreach)
    have hversioned : cstr desc.version = trim (readField data base versionOffset) := by
      have hfield : desc.version = fieldAt out base versionOffset := hversion
      rw [hfield, fieldAt_other hwrite hreach versionOffset (Or.inl (by decide)), cstr_fieldAt]
    have hbuilt : cstr desc.idfVer = trim (readField data base idfVerOffset) := by
      have hfield : desc.idfVer = fieldAt out base idfVerOffset := hidf
      rw [hfield, fieldAt_other hwrite hreach idfVerOffset (Or.inr (by decide)), cstr_fieldAt]
    refine ⟨name, hname, fun apiVersion downloading boot => ?_⟩
    obtain ⟨hgetName, hgetVersion, hgetIdf⟩ := joinParams_get
      ⟨cstr desc.projectName, cstr desc.version, hex desc.appElfSha256, cstr desc.idfVer, chipId⟩ apiVersion
        downloading boot
    exact ⟨hgetName.trans (congrArg (some ∘ Value.string) hnamed),
      hgetVersion.trans (congrArg (some ∘ Value.string) hversioned),
      hgetIdf.trans (congrArg (some ∘ Value.string) hbuilt)⟩

end

/-! ### An image -/

/-- As far as the descriptor and its first fields go, as `esp-idf-sys` makes it. -/
def benchImage : List UInt8 :=
  [0xE9, 0, 0, 0] ++ appDescMagic ++ List.replicate 12 0 ++ (asBytes "1.2.3").rightpad 32 0 ++
    (asBytes "libespidf").rightpad 32 0 ++
    List.replicate 32 0 ++ (asBytes "v5.2.1").rightpad 32 0

def benchNamed : List UInt8 :=
  [0xE9, 0, 0, 0] ++ appDescMagic ++ List.replicate 12 0 ++ (asBytes "1.2.3").rightpad 32 0 ++
    (asBytes "SmartKiosk").rightpad 32 0 ++
    List.replicate 32 0 ++ (asBytes "v5.2.1").rightpad 32 0

theorem benchImage_named : setAppDesc ⟨some "SmartKiosk", false⟩ benchImage =
    .ok (⟨4, "libespidf", "1.2.3", "v5.2.1"⟩, some benchNamed) := by
  decide +kernel

theorem project_named_bench : ∃ name, some "SmartKiosk" = some name ∧
    benchNamed.length = max benchImage.length (4 + projectNameOffset + fieldSize) ∧
    (∀ i, i < 4 + projectNameOffset ∨ 4 + projectNameOffset + fieldSize ≤ i → benchNamed[i]? = benchImage[i]?) ∧
    readField benchNamed 4 projectNameOffset = upToNul name ∧
    (findDescriptor benchNamed = .ok 4 ↔ ∀ i, ¬ Occurs.At appDescMagic (namePlace benchImage 4 name) i) ∧
    (findDescriptor benchNamed = .ok 4 → ∀ again, again ≠ "" →
      (setAppDesc ⟨some again, false⟩ benchNamed).map (·.2) = (setAppDesc ⟨some again, false⟩ benchImage).map (·.2)) :=
  project_named benchImage_named (by decide +kernel)

/-- A name that holds the magic number cannot be replaced. -/
example : (setAppDesc ⟨some "2T\u036b", false⟩ benchImage).bind (fun r => findDescriptor (r.2.getD [])) =
    .error (.candidates [4, 52]) := by
  decide +kernel

def benchDesc : EspAppDesc :=
  ⟨fieldAt benchNamed 4 projectNameOffset, fieldAt benchNamed 4 versionOffset, [], fieldAt benchNamed 4 idfVerOffset⟩

def benchApp : EspApp := ⟨some benchDesc, some (.ok ⟨List.replicate 12 0 ++ [9] ++ List.replicate 11 0, by decide⟩)⟩

theorem device_named_bench : ∃ name, some "SmartKiosk" = some name ∧ ∀ apiVersion downloading boot,
    JoinsNamed ⟨"SmartKiosk", "1.2.3", "", "v5.2.1", 9⟩ name
      ⟨4, "libespidf", "1.2.3", "v5.2.1"⟩ apiVersion downloading boot :=
  device_named benchImage_named (by decide +kernel) benchApp rfl rfl rfl rfl
    (show runningFirmware benchApp = .ok ⟨"SmartKiosk", "1.2.3", "", "v5.2.1", 9⟩ by decide +kernel)

end NervesHub
