import KanariEvm.KeygenPorts
import KanariEvm.Seats

namespace KanariEvm

def keyFilename (validatorNumber : ℕ) : String :=
  "validator-" ++ toString validatorNumber ++ ".key"

/-- A key generation directory: the signers in its key files, by name, and the committee file. -/
structure KeygenDir (D : DagCrypto) where
  keys : String → Option D.Signer
  committee : Option DagCommittee

variable {D : DagCrypto}

/-- The files after `generate_committee` has gone through. Those of an earlier run are overwritten
where the names are the same, and stay otherwise. -/
def KeygenDir.written (dir : KeygenDir D) (io : KeygenIo D) (nodeCount : U64)
    (committee : DagCommittee) : KeygenDir D where
  keys := (List.range nodeCount.toNat).foldl
    (fun keys i => Function.update keys (keyFilename (i + 1)) (some (io.random i))) dir.keys
  committee := some committee

/-- `load_validator` on two files of a directory; `missing` is the error for one that is not
there. -/
def KeygenDir.load (dir : KeygenDir D) (missing : CommitteeError) (committeePath keyPath : String)
    (keyName : String) : Except CommitteeError (LoadedValidator D) :=
  loadValidator D committeePath keyPath (dir.committee.elim (.error missing) .ok)
    ((dir.keys keyName).elim (.error missing) .ok)

theorem keyFilename_injective {m n : ℕ} (h : keyFilename m = keyFilename n) : m = n := by
  have hlist := congrArg String.toList h
  simp only [keyFilename, String.toList_append] at hlist
  rw [List.append_left_inj, List.append_right_inj, Nat.toString_eq_ofList_toDigits,
    Nat.toString_eq_ofList_toDigits, String.toList_ofList, String.toList_ofList] at hlist
  rw [← Nat.ofDigitChars_ten_toDigits (n := m), hlist, Nat.ofDigitChars_ten_toDigits]

theorem written_keys (dir : KeygenDir D) (io : KeygenIo D) (nodeCount : U64)
    (committee : DagCommittee) (i : ℕ) :
    (dir.written io nodeCount committee).keys (keyFilename (i + 1)) =
      if i < nodeCount.toNat then some (io.random i) else dir.keys (keyFilename (i + 1)) := by
  have hloop : ∀ n, (List.range n).foldl
      (fun keys i => Function.update keys (keyFilename (i + 1)) (some (io.random i))) dir.keys
        (keyFilename (i + 1)) =
      if i < n then some (io.random i) else dir.keys (keyFilename (i + 1)) := by
    intro n
    induction n with
    | zero => rfl
    | succ n ih =>
      rw [List.range_succ, List.foldl_append, List.foldl_cons, List.foldl_nil,
        Function.update_apply, ih]
      by_cases heq : i = n
      · subst heq
        rw [if_pos rfl, if_pos (Nat.lt_succ_self i)]
      · rw [if_neg fun hname => heq (by have := keyFilename_injective hname; omega)]
        by_cases hlt : i < n
        · rw [if_pos hlt, if_pos (by omega)]
        · rw [if_neg hlt, if_neg (by omega)]
  exact hloop nodeCount.toNat

section Generated

variable {io : KeygenIo D} {nodeCount : U64} {host : IpAddr} {base : U16}
  {committee : DagCommittee}

theorem generateEntry_ok (hD : D.Lawful) {i : ℕ} {entry : ValidatorEntry}
    (h : generateEntry D io host base i = .ok entry) :
    entry.id = "0x" ++ toString (i + 1) ∧ entry.dagAddress.ip = host ∧
      entry.publicKey = hexEncode (D.toBytes (D.publicKey (io.random i))) := by
  obtain ⟨port, -, h⟩ := bind_eq_ok h
  obtain ⟨key, hkey, h⟩ := bind_eq_ok h
  obtain ⟨-, -, h⟩ := bind_eq_ok h
  obtain ⟨-, -, h⟩ := bind_eq_ok h
  rw [encodePubkey_eq hD] at hkey
  cases hkey
  cases h
  exact ⟨rfl, rfl, rfl⟩

theorem generateCommittee_ok (h : generateCommittee D io nodeCount host base = .ok committee) :
    4 ≤ nodeCount.toNat ∧ List.Forall₂ (fun i entry => generateEntry D io host base i = .ok entry)
      (List.range nodeCount.toNat) committee.authorities := by
  obtain ⟨⟨⟩, hvalid, h⟩ := bind_eq_ok h
  obtain ⟨-, -, h⟩ := bind_eq_ok h
  obtain ⟨authorities, hloop, h⟩ := bind_eq_ok h
  obtain ⟨-, -, h⟩ := bind_eq_ok h
  cases h
  exact ⟨((validateKeygen_eq_ok_iff nodeCount base).mp hvalid).1, Fallible.mapM_eq_ok.mp hloop⟩

theorem generated_getElem (hD : D.Lawful)
    (h : generateCommittee D io nodeCount host base = .ok committee) :
    committee.authorities.length = nodeCount.toNat ∧
      ∀ i entry, committee.authorities[i]? = some entry →
        entry.id = "0x" ++ toString (i + 1) ∧ entry.dagAddress.ip = host ∧
          entry.publicKey = hexEncode (D.toBytes (D.publicKey (io.random i))) := by
  obtain ⟨-, hentries⟩ := generateCommittee_ok h
  have hlength : committee.authorities.length = nodeCount.toNat := by
    rw [← hentries.length_eq, List.length_range]
  refine ⟨hlength, fun i entry hentry => ?_⟩
  obtain ⟨hi, rfl⟩ := List.getElem?_eq_some_iff.mp hentry
  have hgot := hentries.get (by rw [List.length_range]; omega) hi
  simp only [List.get_eq_getElem, List.getElem_range] at hgot
  exact generateEntry_ok hD hgot

theorem generated_toMysticeti (hD : D.Lawful)
    (h : generateCommittee D io nodeCount host base = .ok committee) :
    committee.toMysticeti D =
      .ok ((List.range nodeCount.toNat).map fun i => ⟨1, D.publicKey (io.random i)⟩) := by
  obtain ⟨hfour, -⟩ := generateCommittee_ok h
  obtain ⟨hlength, hentries⟩ := generated_getElem hD h
  rw [DagCommittee.toMysticeti, if_neg (by omega), Fallible.mapM_eq_ok, List.forall₂_iff_get]
  refine ⟨by rw [hlength, List.length_map, List.length_range], fun i hi hi' => ?_⟩
  have hkey := (hentries i _ (List.getElem?_eq_getElem hi)).2.2
  have hdecode : decodePubkey D committee.authorities[i].publicKey =
      .ok (D.publicKey (io.random i)) := by
    rw [hkey]
    exact decodePubkey_of_hexDecode hD (hexDecode_hexEncode _)
  simp only [List.get_eq_getElem, hdecode, List.getElem_map, List.getElem_range]
  rfl

theorem hexEncode_toBytes_inj (hD : D.Lawful) {key key' : D.PublicKey}
    (h : hexEncode (D.toBytes key) = hexEncode (D.toBytes key')) : key = key' := by
  have hbytes := congrArg hexDecode h
  rw [hexDecode_hexEncode, hexDecode_hexEncode, Except.ok.injEq] at hbytes
  have hkeys := congrArg D.fromBytes hbytes
  rwa [hD.from_to, hD.from_to, Except.ok.injEq] at hkeys

theorem loadValidator_of_isFirst (hD : D.Lawful) {infos : List (AuthorityInfo D)}
    (hinfos : committee.toMysticeti D = .ok infos) (committeePath keyPath : String)
    {signer : D.Signer} {i : ℕ} {entry : ValidatorEntry}
    (hfirst : IsFirst (fun entry => entry.publicKey = hexEncode (D.toBytes (D.publicKey signer)))
      committee.authorities i) (hentry : committee.authorities[i]? = some entry) :
    loadValidator D committeePath keyPath (.ok committee) (.ok signer) = .ok {
      index := i
      id := entry.id
      authority := BitVec.ofNat 64 i
      signer := signer
      committee := infos
      dagAddresses := committee.authorities.map (·.dagAddress)
      ownAddress := entry.dagAddress } := by
  obtain ⟨hindex, -⟩ := isFirst_findIdx_iff.mp hfirst
  simp only [loadValidator, bind, Except.bind, encodePubkey_eq hD, hindex, hentry, hinfos]
  rfl

theorem loadValidator_of_foreign (hD : D.Lawful) (committeePath keyPath : String)
    {signer : D.Signer} (hforeign : ∀ entry ∈ committee.authorities,
      entry.publicKey ≠ hexEncode (D.toBytes (D.publicKey signer))) :
    loadValidator D committeePath keyPath (.ok committee) (.ok signer) =
      .error (.invalid ("key " ++ keyPath ++ " matches no validator in " ++ committeePath)) := by
  have hindex : committee.authorities.findIdx (fun entry =>
      decide (entry.publicKey = hexEncode (D.toBytes (D.publicKey signer)))) =
        committee.authorities.length :=
    List.findIdx_eq_length_of_false fun entry hentry => decide_eq_false (hforeign entry hentry)
  simp only [loadValidator, bind, Except.bind, encodePubkey_eq hD, hindex,
    List.getElem?_eq_none (Nat.le_refl _)]
  rfl

/-- What key generation writes, each validator can start from: in whatever directory, if it goes
through and has drawn no key twice, the key file of each validator loads with the committee file as
the entry of its number, all validators with the same committee and the same mesh. A key file that
an earlier run has left behind is refused. -/
theorem keygen_files_load (hD : D.Lawful)
    (hgen : generateCommittee D io nodeCount host base = .ok committee)
    (hdistinct : ∀ i < nodeCount.toNat, ∀ j < nodeCount.toNat,
      D.publicKey (io.random i) = D.publicKey (io.random j) → i = j)
    (old : KeygenDir D) (missing : CommitteeError) (committeePath keyPath : String) :
    let dir := old.written io nodeCount committee
    (∀ i < nodeCount.toNat, ∃ entry, committee.authorities[i]? = some entry ∧
      entry.id = "0x" ++ toString (i + 1) ∧
      dir.load missing committeePath keyPath (keyFilename (i + 1)) = .ok {
        index := i
        id := entry.id
        authority := BitVec.ofNat 64 i
        signer := io.random i
        committee := (List.range nodeCount.toNat).map fun j => ⟨1, D.publicKey (io.random j)⟩
        dagAddresses := committee.authorities.map (·.dagAddress)
        ownAddress := entry.dagAddress }) ∧
    ∀ i ≥ nodeCount.toNat, ∀ signer, old.keys (keyFilename (i + 1)) = some signer →
      (∀ j < nodeCount.toNat, D.publicKey (io.random j) ≠ D.publicKey signer) →
      dir.load missing committeePath keyPath (keyFilename (i + 1)) =
        .error (.invalid ("key " ++ keyPath ++ " matches no validator in " ++ committeePath)) := by
  intro dir
  obtain ⟨hlength, hentries⟩ := generated_getElem hD hgen
  have hkeys := written_keys old io nodeCount committee
  refine ⟨fun i hi => ?_, fun i hi signer hold hforeign => ?_⟩
  · have hentry := List.getElem?_eq_getElem (l := committee.authorities) (hlength ▸ hi)
    obtain ⟨hid, -, hkey⟩ := hentries i _ hentry
    refine ⟨_, hentry, hid, ?_⟩
    have hfirst : IsFirst (fun entry =>
        entry.publicKey = hexEncode (D.toBytes (D.publicKey (io.random i))))
        committee.authorities i := by
      -- an earlier entry with this key would be of a validator that drew the same key
      refine ⟨⟨_, hentry, hkey⟩, fun j hj other hother heq => ?_⟩
      have htexts := (hentries j other hother).2.2.symm.trans heq
      have hij := hdistinct j (by omega) i hi (hexEncode_toBytes_inj hD htexts)
      omega
    rw [KeygenDir.load, hkeys, if_pos hi]
    exact loadValidator_of_isFirst hD (generated_toMysticeti hD hgen) _ _ hfirst hentry
  -- the number is past the committee, so the file was not written over
  · rw [KeygenDir.load, hkeys, if_neg (by omega), hold]
    refine loadValidator_of_foreign hD _ _ fun entry hmem heq => ?_
    obtain ⟨j, hj⟩ := List.mem_iff_getElem?.mp hmem
    rw [(hentries j entry hj).2.2] at heq
    have hlt := (List.getElem?_eq_some_iff.mp hj).1
    exact hforeign j (hlength ▸ hlt) (hexEncode_toBytes_inj hD heq)

end Generated

theorem keygen_files_load_four :
    ∃ committee, generateCommittee DagCrypto.sample KeygenIo.sample 4 (.v4 0x7f000001) 3500 =
        .ok committee ∧
      ∃ loaded, (KeygenDir.written ⟨fun _ => none, none⟩ KeygenIo.sample 4 committee).load
          (.io "missing") "dag-committee.json" "validator-3.key" (keyFilename 3) = .ok loaded ∧
        loaded.index = 2 ∧ loaded.id = "0x3" := by
  obtain ⟨committee, hgen⟩ : ∃ committee, generateCommittee DagCrypto.sample KeygenIo.sample 4
      (.v4 0x7f000001) 3500 = .ok committee := ⟨_, rfl⟩
  have hdistinct : ∀ i < (4 : U64).toNat, ∀ j < (4 : U64).toNat,
      DagCrypto.sample.publicKey (KeygenIo.sample.random i) =
        DagCrypto.sample.publicKey (KeygenIo.sample.random j) → i = j := by
    intro i hi j hj heq
    have hfin := congrArg Fin.val (DagCrypto.sample.pubkey_injective (k := Fin.ofNat 4 i)
      (l := Fin.ofNat 4 j) heq)
    rw [Fin.val_ofNat, Fin.val_ofNat] at hfin
    have hfour : (4 : U64).toNat = 4 := rfl
    omega
  obtain ⟨hload, -⟩ := keygen_files_load DagCrypto.sample_lawful hgen hdistinct
    ⟨fun _ => none, none⟩ (.io "missing") "dag-committee.json" "validator-3.key"
  obtain ⟨entry, -, hid, hloaded⟩ := hload 2 (by decide)
  exact ⟨committee, hgen, _, hloaded, rfl, hid⟩

end KanariEvm
