import Mathlib
import NervesHubLink.Lib.Base64
import NervesHubLink.Lib.ExternalTerm
import NervesHubLink.SharedSecret

/-! What can be read back from a signature. -/

namespace NervesHub
namespace SharedSecret
open ExternalTerm

/-! ### Base64 -/

theorem alphabet_eq : alphabet = Base64.urlSafe.letters := by decide

theorem letter_eq (n : Nat) : letter n = Base64.urlSafe.letter n := by
  have hmod : n &&& 63 = n % 64 := Nat.and_two_pow_sub_one_eq_mod n 6
  have hlt : n % 64 < alphabet.length := by
    rw [alphabet_eq, Base64.urlSafe.length]
    exact Nat.mod_lt _ (by decide)
  rw [letter, hmod, List.getD_eq_getElem _ _ hlt]
  simp only [alphabet_eq]
  rfl

theorem group_eq (x y z : UInt8) :
    (x.toNat <<< 16 ||| y.toNat <<< 8 ||| z.toNat) = Base64.Alphabet.group x y z := by
  have hy := y.toNat_lt
  have hz := z.toNat_lt
  have hhigh : x.toNat <<< 16 ||| y.toNat <<< 8 = x.toNat <<< 16 + y.toNat <<< 8 :=
    (Nat.shiftLeft_add_eq_or_of_lt (by rw [Nat.shiftLeft_eq]; omega) _).symm
  have hshift : x.toNat <<< 16 + y.toNat <<< 8 = (x.toNat * 256 + y.toNat) <<< 8 := by simp only [Nat.shiftLeft_eq]; omega
  rw [hhigh, hshift, ← Nat.shiftLeft_add_eq_or_of_lt (by omega), Nat.shiftLeft_eq, Base64.Alphabet.group]
  omega

theorem base64url_eq (bytes : List UInt8) : base64url bytes = String.ofList (Base64.urlSafe.encode bytes) := by
  refine congrArg String.ofList ?_
  induction bytes using Base64.Alphabet.encode.induct with
  | case1 => rfl
  | case2 x =>
    have hgroup := group_eq x 0 0
    simp [chunks3, base64Chunk, letter_eq, Base64.Alphabet.encode, ← hgroup, Nat.shiftRight_eq_div_pow]
  | case3 x y =>
    have hgroup := group_eq x y 0
    simp [chunks3, base64Chunk, letter_eq, Base64.Alphabet.encode, ← hgroup, Nat.shiftRight_eq_div_pow]
  | case4 x y z rest ih =>
    rw [chunks3, List.flatMap_cons, ih, Base64.Alphabet.encode]
    simp [base64Chunk, letter_eq, group_eq, Nat.shiftRight_eq_div_pow]

/-! ### Terms -/

theorem littleEndian_cons (b : UInt8) (bytes : List UInt8) :
    littleEndian (b :: bytes) = b.toNat + 256 * littleEndian bytes := by
  simp [littleEndian, Nat.ofDigits_cons]

theorem bigEndian_toBeBytes (n : Nat) : bigEndian (toBeBytes n) = n % 2 ^ 32 := by
  simp only [bigEndian, toBeBytes, List.map_cons, List.map_nil, List.reverse_cons, List.reverse_nil, List.nil_append,
    List.cons_append,
    littleEndian_cons, UInt8.toNat_ofNat', Nat.shiftRight_eq_div_pow]
  simp only [littleEndian, List.map_nil, Nat.ofDigits_nil]
  omega

theorem signed32_toBeBytes {n : Nat} (h : n < 2 ^ 32) : signed32 (toBeBytes n) = (n : Int).bmod (2 ^ 32) :=
  congrArg (fun m : Nat => (m : Int).bmod (2 ^ 32)) ((bigEndian_toBeBytes n).trans (Nat.mod_eq_of_lt h))

theorem littleEndian_digits (n : Nat) : littleEndian (digits n) = n := by
  induction n using digits.induct with
  | case1 n h ih =>
    have hlow : n &&& 0xFF = n % 256 := Nat.and_two_pow_sub_one_eq_mod n 8
    rw [digits, if_pos h, littleEndian_cons, ih, hlow, UInt8.toNat_ofNat', Nat.shiftRight_eq_div_pow]
    omega
  | case2 n h =>
    rw [digits, if_neg h]
    have hzero : n = 0 := by omega
    simp [littleEndian, hzero]

theorem digits_least (n : Nat) : (digits n).getLast? ≠ some 0 := by
  induction n using digits.induct with
  | case1 n h ih =>
    rw [digits, if_pos h]
    by_cases hrest : n >>> 8 > 0
    · have hne : digits (n >>> 8) ≠ [] := by
        rw [digits, if_pos hrest]
        exact List.cons_ne_nil _ _
      rw [List.getLast?_cons_of_ne_nil hne]
      exact ih
    · rw [digits, if_neg hrest, List.getLast?_singleton]
      have hlow : n &&& 0xFF = n % 256 := Nat.and_two_pow_sub_one_eq_mod n 8
      rw [Nat.shiftRight_eq_div_pow] at hrest
      intro hzero
      have hzero : (UInt8.ofNat (n &&& 0xFF)).toNat = 0 := congrArg UInt8.toNat (Option.some.inj hzero)
      rw [hlow, UInt8.toNat_ofNat'] at hzero
      omega
  | case2 n h =>
    rw [digits, if_neg h]
    simp

theorem length_digits {n k : Nat} (h : n < 256 ^ k) : (digits n).length ≤ k := by
  induction k generalizing n with
  | zero =>
    have hzero : n = 0 := by omega
    rw [digits, if_neg (by omega)]
    exact Nat.le_refl 0
  | succ k ih =>
    rw [digits]
    split
    · have hrest : n >>> 8 < 256 ^ k := by
        rw [Nat.shiftRight_eq_div_pow]
        exact Nat.div_lt_of_lt_mul (by rwa [← Nat.pow_succ'])
      exact Nat.succ_le_succ (ih hrest)
    · exact Nat.zero_le _

/-- What the code writes for an integer is how it is written. -/
theorem encodeInteger_writes (out : List UInt8) (value : Int64) :
    ∃ written, encodeInteger out value = out ++ written ∧ WritesInteger value.toInt written := by
  have hlow := value.minValue_le_toInt
  have hhigh := value.toInt_lt
  rw [Int64.toInt_minValue] at hlow
  unfold encodeInteger
  by_cases hshort : 0 ≤ value.toInt ∧ value.toInt ≤ 255
  · rw [if_pos hshort]
    have hbyte : ((UInt8.ofNat value.toInt.toNat).toNat : Int) = value.toInt := by
      rw [UInt8.toNat_ofNat']
      omega
    have hsmall := WritesInteger.small (UInt8.ofNat value.toInt.toNat)
    rw [hbyte] at hsmall
    exact ⟨_, rfl, hsmall⟩
  rw [if_neg hshort]
  by_cases hwide : -2 ^ 31 ≤ value.toInt ∧ value.toInt ≤ 2 ^ 31 - 1
  · rw [if_pos hwide]
    have hbits : (value.toInt32.toUInt32.toNat : Int).bmod (2 ^ 32) = value.toInt32.toInt :=
      (BitVec.toInt_eq_toNat_bmod value.toInt32.toBitVec).symm
    have hfits : value.toInt.bmod (2 ^ 32) = value.toInt := Int.bmod_eq_of_le (by omega) (by omega)
    have hsigned : signed32 (toBeBytes value.toInt32.toUInt32.toNat) = value.toInt :=
      (signed32_toBeBytes (UInt32.toNat_lt _)).trans (hbits.trans (value.toInt_toInt32.trans hfits))
    refine ⟨integerExt :: toBeBytes value.toInt32.toUInt32.toNat, ?_, .wide (by omega) rfl hsigned⟩
    simp only [List.append_assoc]
    rfl
  · rw [if_neg hwide]
    have hlen : (digits value.toInt.natAbs).length ≤ 8 := length_digits (by omega)
    refine ⟨_, ?_, .big (by omega) (Nat.lt_of_le_of_lt hlen (by decide)) (digits_least _) (littleEndian_digits _)⟩
    simp only [List.append_assoc]
    rfl

theorem length_asBytes (s : String) : (asBytes s).length = s.utf8ByteSize := by
  rw [asBytes, Array.length_toList]
  rfl

theorem payload_writes {identifier : String} (hid : identifier.utf8ByteSize < 2 ^ 32) (signedAtMs maxAge : Int64) :
    ∃ written, payload identifier signedAtMs maxAge = versionMagic :: written ∧
      Writes (.tuple [.binary (asBytes identifier), .integer signedAtMs.toInt, .integer maxAge.toInt]) written := by
  let len := toBeBytes (identifier.utf8ByteSize % 2 ^ 32)
  have hlen : bigEndian len = (asBytes identifier).length := by
    rw [bigEndian_toBeBytes, Nat.mod_mod, Nat.mod_eq_of_lt hid, length_asBytes]
  let out : List UInt8 := [131, 104, 3] ++ [109] ++ len ++ asBytes identifier
  obtain ⟨stamp, hat, hwat⟩ := encodeInteger_writes out signedAtMs
  obtain ⟨age, hage, hwage⟩ := encodeInteger_writes (encodeInteger out signedAtMs) maxAge
  let items : List (Term × List UInt8) := [(.binary (asBytes identifier), binaryExt :: len ++ asBytes identifier),
    (.integer signedAtMs.toInt, stamp), (.integer maxAge.toInt, age)]
  have hitems : ∀ item ∈ items, Writes item.1 item.2 := by
    intro item hitem
    simp only [items, List.mem_cons, List.not_mem_nil, or_false] at hitem
    rcases hitem with rfl | rfl | rfl
    · exact .binary rfl hlen
    · exact .integer hwat
    · exact .integer hwage
  refine ⟨_, ?_, @Writes.tuple items (show 3 < 256 by decide) hitems⟩
  show encodeInteger (encodeInteger out signedAtMs) maxAge = _
  rw [hage, hat]
  simp [items, out, versionMagic, smallTupleExt, binaryExt]

/-! ### Tokens -/

theorem dot_not_letter : '.' ∉ alphabet := by decide

section
variable [Signing]

/-- The first two segments of a token, joined. -/
def signed (second : List Char) : String := String.ofList (['.'].intercalate [protectedHeader.toList, second])

omit [Signing] in
theorem signed_eq (payload : List UInt8) :
    signed (Base64.urlSafe.encode payload) = protectedHeader ++ "." ++ base64url payload := by
  rw [base64url_eq, ← String.toList_inj]
  simp [signed]

theorem toList_token (signingKey payload : List UInt8) :
    (token signingKey payload).toList = ['.'].intercalate [protectedHeader.toList, Base64.urlSafe.encode payload,
      Base64.urlSafe.encode (Signing.hmac signingKey (asBytes (signed (Base64.urlSafe.encode payload))))] := by
  rw [signed_eq, token, base64url_eq (Signing.hmac _ _), base64url_eq payload]
  simp

/-- A signature has three segments of letters. The second is the term that the server checks, with the time that another
    header carries, the third is the HMAC of the first two under the derived key, and every integer is written as Erlang
    writes it. -/
theorem signature_reads_back (s : SharedSecret) (identifier : String) (signedAt : Int64)
    (hid : identifier.utf8ByteSize < 2 ^ 32) (htime : -2 ^ 63 ≤ signedAt.toInt * 1000 ∧ signedAt.toInt * 1000 < 2 ^ 63) :
    (∃ signature second third, (s.headers identifier signedAt).lookup "x-nh-signature" = some signature ∧
      (s.headers identifier signedAt).lookup "x-nh-time" = some (toString signedAt.toInt) ∧
      signature.toList.splitOn '.' = [protectedHeader.toList, second, third] ∧
      (∀ segment ∈ [protectedHeader.toList, second, third], ∀ c ∈ segment, c ∈ Base64.urlSafe.letters) ∧
      (Base64.urlSafe.decode second).bind decode =
        some (.tuple [.binary (asBytes identifier), .integer (1000 * signedAt.toInt), .integer 86400]) ∧
      Base64.urlSafe.decode third = some (Signing.hmac (s.derived signedAt) (asBytes (signed second)))) ∧
    ∀ (out : List UInt8) (value : Int64), ∃ written, encodeInteger out value = out ++ written ∧
      WritesInteger value.toInt written := by
  let bytes := payload identifier (signedAt * 1000) defaultMaxAgeSecs
  let second := Base64.urlSafe.encode bytes
  let third := Base64.urlSafe.encode (Signing.hmac (s.derived signedAt) (asBytes (signed second)))
  have hletters : ∀ segment ∈ [protectedHeader.toList, second, third], ∀ c ∈ segment, c ∈ Base64.urlSafe.letters := by
    intro segment hsegment c hc
    simp only [List.mem_cons, List.not_mem_nil, or_false] at hsegment
    rcases hsegment with rfl | rfl | rfl
    · have hheader : (protectedHeader.toList.all fun c => c ∈ Base64.urlSafe.letters) = true := by decide
      exact of_decide_eq_true (List.all_eq_true.mp hheader c hc)
    · exact Base64.urlSafe.encode_mem hc
    · exact Base64.urlSafe.encode_mem hc
  have hdots : ∀ segment ∈ [protectedHeader.toList, second, third], '.' ∉ segment := fun segment hsegment hdot =>
    dot_not_letter (alphabet_eq ▸ hletters segment hsegment '.' hdot)
  refine ⟨⟨token (s.derived signedAt) bytes, second, third, rfl, rfl, ?_, hletters, ?_, Base64.urlSafe.decode_encode _⟩,
    encodeInteger_writes⟩
  · rw [toList_token]
    exact List.splitOn_intercalate '.' hdots (List.cons_ne_nil _ _)
  · obtain ⟨written, hbytes, hwritten⟩ := payload_writes hid (signedAt * 1000) defaultMaxAgeSecs
    have hms : (signedAt * 1000).toInt = 1000 * signedAt.toInt := by
      have hthousand : (1000 : Int64).toInt = 1000 := rfl
      rw [Int64.toInt_mul, hthousand, Int.mul_comm]
      exact Int.bmod_eq_of_le (by omega) (by omega)
    have hage : defaultMaxAgeSecs.toInt = 86400 := rfl
    rw [hms, hage] at hwritten
    rw [Base64.urlSafe.decode_encode, Option.bind_some]
    show decode (payload identifier (signedAt * 1000) defaultMaxAgeSecs) = _
    rw [hbytes]
    exact hwritten.decode

end

/-! ### The salt -/

/-- A separator that does not come in what follows it shows where that begins. -/
theorem append_cons_inj {α : Type} {x x' y y' : List α} {a : α} (hy : a ∉ y) (hy' : a ∉ y')
    (h : x ++ a :: y = x' ++ a :: y') :
    x = x' ∧ y = y' := by
  rcases List.append_eq_append_iff.mp h with ⟨c, hx, hc⟩ | ⟨c, hx, hc⟩
  · cases c with
    | nil => exact ⟨by simpa using hx.symm, (List.cons.inj hc).2⟩
    | cons d c =>
      obtain ⟨-, rfl⟩ := List.cons.inj hc
      exact absurd (List.mem_append_right _ List.mem_cons_self) hy
  · cases c with
    | nil => exact ⟨by simpa using hx, (List.cons.inj hc).2.symm⟩
    | cons d c =>
      obtain ⟨-, rfl⟩ := List.cons.inj hc
      exact absurd (List.mem_append_right _ List.mem_cons_self) hy'

theorem equals_not_digit (n : Nat) : '=' ∉ n.repr.toList := by
  intro h
  rw [Nat.toList_repr] at h
  exact absurd (Nat.isDigit_of_mem_toDigits (by decide) (by decide) h) (by decide)

theorem equals_not_decimal (n : Int) : '=' ∉ (toString n).toList := by
  intro h
  rw [Int.toString_eq_repr, Int.repr_eq_if] at h
  split at h
  · exact equals_not_digit _ h
  · rw [String.toList_append] at h
    rcases List.mem_append.mp h with h | h
    · exact absurd h (by decide)
    · exact equals_not_digit _ h

theorem toList_salt (alg key : String) (signedAt : Int64) :
    (salt alg key signedAt).toList = "NH1:device-socket:shared-secret:connect\n\nx-nh-alg=NH1-HMAC-".toList ++ alg.toList ++
      "\nx-nh-key=".toList ++ ((key.toList ++ "\nx-nh-time".toList) ++ '=' ::
        ((toString signedAt.toInt).toList ++ "\n".toList)) := by
  have htime : "\nx-nh-time=".toList = "\nx-nh-time".toList ++ ['='] := by decide
  have hsalt : salt alg key signedAt = "NH1:device-socket:shared-secret:connect\n\nx-nh-alg=NH1-HMAC-" ++ alg ++
    "\nx-nh-key=" ++ key ++
      "\nx-nh-time=" ++ toString signedAt.toInt ++ "\n" := rfl
  simp only [hsalt, String.toList_append, htime, List.append_assoc, List.cons_append, List.nil_append]

/-- Whatever the key holds, the last `=` of a salt is the one before the time. -/
theorem salt_inj {alg key key' : String} {signedAt signedAt' : Int64}
    (h : salt alg key signedAt = salt alg key' signedAt') :
    key = key' ∧ signedAt = signedAt' := by
  have hlast : ∀ n : Int, '=' ∉ (toString n).toList ++ "\n".toList := fun n hmem =>
    (List.mem_append.mp hmem).elim (equals_not_decimal n) (by decide)
  have hlist := congrArg String.toList h
  rw [toList_salt, toList_salt] at hlist
  obtain ⟨hkey, htime⟩ := append_cons_inj (hlast _) (hlast _) (List.append_cancel_left hlist)
  have hrepr := String.toList_injective (List.append_cancel_right htime)
  rw [Int.toString_eq_repr, Int.toString_eq_repr] at hrepr
  exact ⟨String.toList_injective (List.append_cancel_right hkey), Int64.toInt_inj.mp (Int.repr_injective hrepr)⟩

/-- The salt binds the key and the time: two secrets have one salt at two times only if both are the same. -/
theorem salt_binds (s s' : SharedSecret) (signedAt signedAt' : Int64) :
    salt alg s.key signedAt = salt alg s'.key signedAt' ↔ s.key = s'.key ∧ signedAt = signedAt' :=
  ⟨salt_inj, fun ⟨hkey, htime⟩ => by rw [hkey, htime]⟩

/-! ### The secret of the repository's own vectors -/

section

def vectorKey : List UInt8 :=
  [0x7b, 0x3d, 0xf9, 0xc3, 0x27, 0x80, 0xd8, 0x3f, 0x23, 0xb3, 0x8b, 0x04, 0x12, 0x8a, 0x43, 0x37,
    0x00, 0x94, 0xf2, 0x82, 0x73, 0x35, 0x87, 0xd1, 0x60, 0x5c, 0x68, 0xfa, 0x8c, 0x6a, 0xea, 0x2e]

def vectorSignature : List UInt8 :=
  [0xf6, 0xa5, 0xdf, 0x64, 0x2e, 0xff, 0x10, 0xd4, 0x32, 0x4f, 0x9f, 0xcb, 0x65, 0xce, 0x8b, 0xb1,
    0x77, 0x7f, 0xb8, 0x4a, 0x14, 0x07, 0x65, 0x7e, 0x21, 0x90, 0xea, 0x72, 0x63, 0x5d, 0xee, 0x04]

/-- HMAC and PBKDF2 as far as they are looked at here. -/
@[reducible] def vectorSigning : Signing where
  hmac key _ := if key = vectorKey then vectorSignature else []
  pbkdf2 password _ rounds keyLength :=
    if password = asBytes "s3cret-value" ∧ rounds = 1000 ∧ keyLength = 32 then vectorKey else []

attribute [local instance] vectorSigning

def vectorSecret : SharedSecret := ⟨"nhp_abc123", "s3cret-value"⟩

theorem signature_reads_back_vectors :
    ∃ signature second third, (vectorSecret.headers "my-device" 1787120842).lookup "x-nh-signature" = some signature ∧
      (vectorSecret.headers "my-device" 1787120842).lookup "x-nh-time" = some (toString (1787120842 : Int64).toInt) ∧
      signature.toList.splitOn '.' = [protectedHeader.toList, second, third] ∧
      (∀ segment ∈ [protectedHeader.toList, second, third], ∀ c ∈ segment, c ∈ Base64.urlSafe.letters) ∧
      (Base64.urlSafe.decode second).bind decode =
        some (.tuple [.binary (asBytes "my-device"), .integer (1000 * (1787120842 : Int64).toInt), .integer 86400]) ∧
      Base64.urlSafe.decode third = some (Signing.hmac (vectorSecret.derived 1787120842) (asBytes (signed second))) :=
  (signature_reads_back vectorSecret "my-device" 1787120842 (by decide) (by decide)).1

example : (vectorSecret.headers "my-device" 1787120842).lookup "x-nh-signature" =
    some "SFMyNTY.g2gDbQAAAAlteS1kZXZpY2VuBgAQ9bMYoAFiAAFRgA.9qXfZC7_ENQyT5_LZc6LsXd_uEoUB2V-IZDqcmNd7gQ" := by
  decide +kernel

end

end SharedSecret
end NervesHub
