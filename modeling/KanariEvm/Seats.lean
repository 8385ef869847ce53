import KanariEvm.Committee
import KanariEvm.HexTexts
import KanariEvm.Lib.Fallible

namespace KanariEvm

/-- Element `i` is the first of the list with the property. -/
def IsFirst {α : Type} (p : α → Prop) (l : List α) (i : ℕ) : Prop :=
  (∃ a, l[i]? = some a ∧ p a) ∧ ∀ j < i, ∀ a, l[j]? = some a → ¬p a

theorem exists_isFirst {α : Type} {p : α → Prop} {l : List α} {k : ℕ} {a : α}
    (ha : l[k]? = some a) (hp : p a) : ∃ i, IsFirst p l i := by
  classical
  have hex : ∃ i, ∃ a, l[i]? = some a ∧ p a := ⟨k, a, ha, hp⟩
  exact ⟨Nat.find hex, Nat.find_spec hex, fun j hj b hb hpb => Nat.find_min hex hj ⟨b, hb, hpb⟩⟩

theorem isFirst_findIdx_iff {α : Type} {p : α → Prop} [DecidablePred p] {l : List α} {i : ℕ} :
    IsFirst p l i ↔ l.findIdx (fun a => decide (p a)) = i ∧ i < l.length := by
  constructor
  · rintro ⟨⟨a, ha, hpa⟩, hbefore⟩
    obtain ⟨hi, rfl⟩ := List.getElem?_eq_some_iff.mp ha
    refine ⟨(List.findIdx_eq hi).mpr ⟨decide_eq_true hpa, ?_⟩, hi⟩
    intro j hj
    exact decide_eq_false (hbefore j hj _ (List.getElem?_eq_getElem (by omega)))
  · rintro ⟨hidx, hi⟩
    obtain ⟨hp, hbefore⟩ := (List.findIdx_eq hi).mp hidx
    refine ⟨⟨l[i], List.getElem?_eq_getElem hi, of_decide_eq_true hp⟩, ?_⟩
    intro j hj a ha
    obtain ⟨hj', rfl⟩ := List.getElem?_eq_some_iff.mp ha
    exact of_decide_eq_false (hbefore j hj)

section Seats

variable {D : DagCrypto}

theorem decodePubkey_of_hexDecode (hD : D.Lawful) {key : D.PublicKey} {text : List Char}
    (h : hexDecode text = .ok (D.toBytes key)) : decodePubkey D text = .ok key := by
  have hbytes : hexDecode32 text = .ok (D.toBytes key) :=
    hexDecode32_eq_ok_iff.mpr ⟨h, hD.length key⟩
  simp only [decodePubkey, hbytes]
  exact hD.from_to key

variable (D) (committee : DagCommittee) (signer : D.Signer) (committeePath keyPath : String)

def DagCommittee.Decodes : Prop :=
  ∀ entry ∈ committee.authorities, ∃ key, decodePubkey D entry.publicKey = .ok key

/-- Entry `i` is the first that decodes to the key. -/
def DagCommittee.FirstSeat (key : D.PublicKey) (i : ℕ) : Prop :=
  IsFirst (fun entry => decodePubkey D entry.publicKey = .ok key) committee.authorities i

def DagCommittee.DistinctKeys : Prop :=
  ∀ (i j : ℕ) (entry entry' : ValidatorEntry) key, committee.authorities[i]? = some entry →
    committee.authorities[j]? = some entry' → decodePubkey D entry.publicKey = .ok key →
    decodePubkey D entry'.publicKey = .ok key → i = j

def LoadsAs (i : ℕ) : Prop :=
  ∃ loaded, loadValidator D committeePath keyPath (.ok committee) (.ok signer) = .ok loaded ∧
    loaded.index = i

/-- The validator finds its own seat, by key and not by spelling, in a committee of keys that are
all distinct, and no validator with another key is loaded as the same authority. -/
def FindsSeat : Prop :=
  (∀ i, LoadsAs D committee signer committeePath keyPath i ↔
    committee.FirstSeat D (D.publicKey signer) i) ∧
  (∀ i, LoadsAs D committee signer committeePath keyPath i → committee.DistinctKeys D) ∧
  ∀ other, D.publicKey other ≠ D.publicKey signer → ∀ i,
    LoadsAs D committee signer committeePath keyPath i →
      ¬LoadsAs D committee other committeePath keyPath i

variable {D committee signer committeePath keyPath}

theorem exists_toMysticeti (hdec : committee.Decodes D)
    (hlen : 4 ≤ committee.authorities.length) :
    ∃ infos, committee.toMysticeti D = .ok infos := by
  rw [DagCommittee.toMysticeti, if_neg (by omega)]
  apply Fallible.exists_mapM_eq_ok
  intro entry hentry
  obtain ⟨key, hkey⟩ := hdec entry hentry
  exact ⟨⟨1, key⟩, by rw [hkey]; rfl⟩

/-- What `load_validator` does: the seat is the first whose text is the one that key generation
would write. -/
theorem loadsAs_iff (hD : D.Lawful) (hdec : committee.Decodes D) (i : ℕ) :
    LoadsAs D committee signer committeePath keyPath i ↔
      4 ≤ committee.authorities.length ∧
        IsFirst (fun entry => entry.publicKey = hexEncode (D.toBytes (D.publicKey signer)))
          committee.authorities i := by
  rw [isFirst_findIdx_iff]
  set index := committee.authorities.findIdx fun entry =>
    decide (entry.publicKey = hexEncode (D.toBytes (D.publicKey signer))) with hindex
  by_cases hlt : index < committee.authorities.length
  swap
  · have hload : loadValidator D committeePath keyPath (.ok committee) (.ok signer) =
        .error (.invalid ("key " ++ keyPath ++ " matches no validator in " ++ committeePath)) := by
      simp only [loadValidator, bind, Except.bind, encodePubkey_eq hD, ← hindex,
        List.getElem?_eq_none (Nat.le_of_not_lt hlt)]
      rfl
    constructor
    · rintro ⟨loaded, hok, _⟩
      rw [hload] at hok
      cases hok
    · rintro ⟨_, rfl, hi⟩
      exact absurd hi hlt
  by_cases hlen : 4 ≤ committee.authorities.length
  · obtain ⟨infos, hinfos⟩ := exists_toMysticeti hdec hlen
    have hload : ∃ loaded, loadValidator D committeePath keyPath (.ok committee) (.ok signer) =
        .ok loaded ∧ loaded.index = index := by
      refine ⟨?_, ?_, ?_⟩
      rotate_left
      · simp only [loadValidator, bind, Except.bind, encodePubkey_eq hD, ← hindex,
          List.getElem?_eq_getElem hlt, hinfos]
        rfl
      · rfl
    obtain ⟨loaded, hok, hidx⟩ := hload
    constructor
    · rintro ⟨loaded', hok', rfl⟩
      rw [hok] at hok'
      cases hok'
      exact ⟨hlen, hidx.symm, hidx ▸ hlt⟩
    · rintro ⟨_, rfl, _⟩
      exact ⟨loaded, hok, hidx⟩
  · have hfew : ∃ e, loadValidator D committeePath keyPath (.ok committee) (.ok signer) =
        .error e := by
      refine ⟨?_, ?_⟩
      rotate_left
      · simp only [loadValidator, bind, Except.bind, encodePubkey_eq hD, ← hindex,
          List.getElem?_eq_getElem hlt, DagCommittee.toMysticeti, if_pos (Nat.lt_of_not_le hlen)]
        rfl
    obtain ⟨e, he⟩ := hfew
    constructor
    · rintro ⟨loaded, hok, _⟩
      rw [he] at hok
      cases hok
    · rintro ⟨hge, _⟩
      exact absurd hge hlen

theorem decodes_of_spelled (hD : D.Lawful) {entry : ValidatorEntry} {key : D.PublicKey}
    (h : entry.publicKey = hexEncode (D.toBytes key)) :
    decodePubkey D entry.publicKey = .ok key := by
  rw [h]
  exact decodePubkey_of_hexDecode hD (hexDecode_hexEncode _)

theorem loadsAs_apart (hD : D.Lawful) (hdec : committee.Decodes D) {other : D.Signer}
    (hne : D.publicKey other ≠ D.publicKey signer) {i : ℕ}
    (h : LoadsAs D committee signer committeePath keyPath i) :
    ¬LoadsAs D committee other committeePath keyPath i := by
  intro hother
  obtain ⟨_, ⟨entry, hentry, htext⟩, _⟩ := (loadsAs_iff hD hdec i).mp h
  obtain ⟨_, ⟨entry', hentry', htext'⟩, _⟩ := (loadsAs_iff hD hdec i).mp hother
  rw [hentry] at hentry'
  cases hentry'
  have hkey := decodes_of_spelled hD htext
  rw [decodes_of_spelled hD htext'] at hkey
  exact hne (Except.ok.inj hkey)

/-- With distinct keys and the own entry spelled as key generation writes it, the first text and
the first key are the same entry. -/
theorem firstText_iff_firstSeat (hD : D.Lawful) (hdistinct : committee.DistinctKeys D)
    {own : ValidatorEntry} (hown : own ∈ committee.authorities)
    (hspelled : own.publicKey = hexEncode (D.toBytes (D.publicKey signer))) (i : ℕ) :
    IsFirst (fun entry => entry.publicKey = hexEncode (D.toBytes (D.publicKey signer)))
      committee.authorities i ↔ committee.FirstSeat D (D.publicKey signer) i := by
  obtain ⟨k, hk⟩ := List.mem_iff_getElem?.mp hown
  have hownKey := decodes_of_spelled hD hspelled
  constructor
  · rintro ⟨⟨entry, hentry, htext⟩, _⟩
    have hkey := decodes_of_spelled hD htext
    refine ⟨⟨entry, hentry, hkey⟩, ?_⟩
    intro j hj entry' hentry' hkey'
    have := hdistinct j i entry' entry _ hentry' hentry hkey' hkey
    omega
  · rintro ⟨⟨entry, hentry, hkey⟩, hbefore⟩
    have hik := hdistinct i k entry own _ hentry hk hkey hownKey
    subst hik
    refine ⟨⟨own, hk, hspelled⟩, ?_⟩
    intro j hj entry' hentry' htext'
    exact hbefore j hj entry' hentry' (decodes_of_spelled hD htext')

/-- A validator finds its seat exactly when it has none to find, or the file has the four entries
that are asked for, its own is spelled as key generation writes it and no key is listed twice. -/
theorem findsSeat_iff (hD : D.Lawful) (hdec : committee.Decodes D) :
    FindsSeat D committee signer committeePath keyPath ↔
      (∀ entry ∈ committee.authorities,
        decodePubkey D entry.publicKey ≠ .ok (D.publicKey signer)) ∨
      (4 ≤ committee.authorities.length ∧ committee.DistinctKeys D ∧
        ∃ entry ∈ committee.authorities,
          entry.publicKey = hexEncode (D.toBytes (D.publicKey signer))) := by
  constructor
  · rintro ⟨hseat, hdistinct, _⟩
    by_cases hnone : ∀ entry ∈ committee.authorities,
        decodePubkey D entry.publicKey ≠ .ok (D.publicKey signer)
    · exact .inl hnone
    push Not at hnone
    obtain ⟨entry, hentry, hkey⟩ := hnone
    obtain ⟨k, hk⟩ := List.mem_iff_getElem?.mp hentry
    obtain ⟨i, hfirst⟩ : ∃ i, committee.FirstSeat D (D.publicKey signer) i :=
      exists_isFirst hk hkey
    have hloads := (hseat i).mpr hfirst
    obtain ⟨hlen, ⟨own, hown, hspelled⟩, _⟩ := (loadsAs_iff hD hdec i).mp hloads
    exact .inr ⟨hlen, hdistinct i hloads, own, List.mem_of_getElem? hown, hspelled⟩
  · intro hcond
    refine ⟨?_, ?_, fun other hne i h => loadsAs_apart hD hdec hne h⟩
    · intro i
      rw [loadsAs_iff hD hdec]
      obtain hnone | ⟨hlen, hdistinct, own, hown, hspelled⟩ := hcond
      · constructor
        · rintro ⟨_, ⟨entry, hentry, htext⟩, _⟩
          exact absurd (decodes_of_spelled hD htext) (hnone entry (List.mem_of_getElem? hentry))
        · rintro ⟨⟨entry, hentry, hkey⟩, _⟩
          exact absurd hkey (hnone entry (List.mem_of_getElem? hentry))
      · rw [firstText_iff_firstSeat hD hdistinct hown hspelled, and_iff_right hlen]
    · intro i hloads
      obtain ⟨_, ⟨entry, hentry, htext⟩, _⟩ := (loadsAs_iff hD hdec i).mp hloads
      obtain hnone | ⟨_, hdistinct, _⟩ := hcond
      · exact absurd (decodes_of_spelled hD htext) (hnone entry (List.mem_of_getElem? hentry))
      · exact hdistinct

end Seats

namespace DagCrypto.sample

def signer (k : Fin 4) : DagCrypto.sample.Signer := k

def pubkey (k : Fin 4) : DagCrypto.sample.PublicKey := DagCrypto.sample.publicKey (signer k)

/-- The committee of four keys on one host, where `spell` writes the key of an entry. -/
def committee (spell : Fin 4 → Bytes → List Char) : DagCommittee where
  authorities := List.ofFn fun k =>
    ⟨"0x" ++ toString (k.val + 1), ⟨.v4 0x7f000001, BitVec.ofNat 16 (3500 + 10 * k.val)⟩,
      spell k (DagCrypto.sample.toBytes (pubkey k))⟩

def edited : DagCommittee :=
  committee fun k bytes => if k.val = 0 then hexPrefixed bytes else hexEncode bytes

theorem pubkey_injective {k l : Fin 4} (h : pubkey k = pubkey l) : k = l := by
  have hbytes : ∀ k l : Fin 4, (pubkey k).val = (pubkey l).val → k = l := by decide +kernel
  exact hbytes k l (congrArg Subtype.val h)

variable {spell : Fin 4 → Bytes → List Char}

theorem entry_of_getElem? {i : ℕ} {entry : ValidatorEntry}
    (h : (committee spell).authorities[i]? = some entry) :
    ∃ k : Fin 4, k.val = i ∧
      entry.publicKey = spell k (DagCrypto.sample.toBytes (pubkey k)) := by
  simp only [committee, List.getElem?_ofFn] at h
  split_ifs at h with hi
  exact ⟨⟨i, hi⟩, rfl, by rw [← Option.some.inj h]⟩

theorem decodes_entry (hspell : ∀ k bytes, hexDecode (spell k bytes) = .ok bytes) {i : ℕ}
    {entry : ValidatorEntry} (h : (committee spell).authorities[i]? = some entry) :
    ∃ k : Fin 4, k.val = i ∧
      decodePubkey DagCrypto.sample entry.publicKey = .ok (pubkey k) := by
  obtain ⟨k, hk, htext⟩ := entry_of_getElem? h
  refine ⟨k, hk, ?_⟩
  rw [htext]
  exact decodePubkey_of_hexDecode DagCrypto.sample_lawful (hspell k _)

theorem committee_decodes (hspell : ∀ k bytes, hexDecode (spell k bytes) = .ok bytes) :
    (committee spell).Decodes DagCrypto.sample := by
  intro entry hentry
  obtain ⟨i, hi⟩ := List.mem_iff_getElem?.mp hentry
  obtain ⟨k, _, hkey⟩ := decodes_entry hspell hi
  exact ⟨pubkey k, hkey⟩

theorem committee_distinct (hspell : ∀ k bytes, hexDecode (spell k bytes) = .ok bytes) :
    (committee spell).DistinctKeys DagCrypto.sample := by
  intro i j entry entry' key hi hj hkey hkey'
  obtain ⟨k, rfl, hk⟩ := decodes_entry hspell hi
  obtain ⟨l, rfl, hl⟩ := decodes_entry hspell hj
  rw [hkey] at hk
  rw [hkey'] at hl
  rw [pubkey_injective ((Except.ok.inj hk).symm.trans (Except.ok.inj hl))]

theorem edited_spelling (k : Fin 4) (bytes : Bytes) :
    hexDecode (if k.val = 0 then hexPrefixed bytes else hexEncode bytes) = .ok bytes := by
  split_ifs
  · exact hexDecode_hexPrefixed bytes
  · exact hexDecode_hexEncode bytes

end DagCrypto.sample

open DagCrypto.sample in
theorem findsSeat_generated :
    FindsSeat DagCrypto.sample (committee fun _ => hexEncode) (signer 0) "dag-committee.json"
      "validator-1.key" := by
  have hspell : ∀ (k : Fin 4) bytes, hexDecode ((fun _ => hexEncode) k bytes) = .ok bytes :=
    fun _ => hexDecode_hexEncode
  rw [findsSeat_iff DagCrypto.sample_lawful (committee_decodes hspell)]
  refine .inr ⟨by decide, committee_distinct hspell, _,
    List.mem_of_getElem? (rfl : _[0]? = some _), ?_⟩
  rfl

open DagCrypto.sample in
/-- A prefix that committee construction accepts hides the seat. -/
theorem prefixed_key_is_not_found :
    edited.Decodes DagCrypto.sample ∧ edited.FirstSeat DagCrypto.sample (pubkey 0) 0 ∧
      ¬LoadsAs DagCrypto.sample edited (signer 0) "dag-committee.json" "validator-1.key" 0 ∧
      ¬FindsSeat DagCrypto.sample edited (signer 0) "dag-committee.json" "validator-1.key" := by
  have hdec : edited.Decodes DagCrypto.sample := committee_decodes edited_spelling
  have hfirst : edited.FirstSeat DagCrypto.sample (pubkey 0) 0 := by
    refine ⟨⟨_, rfl, ?_⟩, fun j hj => absurd hj (Nat.not_lt_zero j)⟩
    exact decodePubkey_of_hexDecode DagCrypto.sample_lawful (hexDecode_hexPrefixed _)
  have hloads :
      ¬LoadsAs DagCrypto.sample edited (signer 0) "dag-committee.json" "validator-1.key" 0 := by
    rw [loadsAs_iff DagCrypto.sample_lawful hdec]
    rintro ⟨_, ⟨entry, hentry, htext⟩, _⟩
    obtain ⟨k, hk, hspelled⟩ := entry_of_getElem? hentry
    have hk0 : k = 0 := Fin.ext hk
    subst hk0
    have hlen := congrArg List.length (hspelled.symm.trans htext)
    revert hlen
    decide +kernel
  exact ⟨hdec, hfirst, hloads, fun h => hloads ((h.1 0).mpr hfirst)⟩

end KanariEvm
