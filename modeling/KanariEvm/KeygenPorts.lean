import KanariEvm.Committee
import KanariEvm.Lib.Fallible

namespace KanariEvm

/-- What passes the checks of key generation: the number of validators enters the second one by its
low 32 bits only. -/
theorem validateKeygen_eq_ok_iff (nodeCount : U64) (base : U16) :
    validateKeygen nodeCount base = .ok () ↔
      4 ≤ nodeCount.toNat ∧
        (base.toNat + 10 * (nodeCount.toNat % 2 ^ 32 - 1)) * 10 ≤ 65535 := by
  have hspan : (saturatingMul (saturatingSub (nodeCount.setWidth 32) 1) 10 : U32).toNat =
      min ((nodeCount.toNat % 2 ^ 32 - 1) * 10) (2 ^ 32 - 1) := by
    have hlt : nodeCount.toNat % 2 ^ 32 < 2 ^ 32 := Nat.mod_lt _ (by decide)
    have hsub : (saturatingSub (nodeCount.setWidth 32) 1 : U32).toNat =
        nodeCount.toNat % 2 ^ 32 - 1 := by
      rw [saturatingSub, BitVec.toNat_ofNat, BitVec.toNat_setWidth]
      exact Nat.mod_eq_of_lt (by simp; omega)
    rw [saturatingMul_toNat, hsub]
    rfl
  have hbase : (base.setWidth 32).toNat = base.toNat := by
    rw [BitVec.toNat_setWidth]
    exact Nat.mod_eq_of_lt (by have := base.isLt; omega)
  have htop := saturatingAdd_toNat (base.setWidth 32)
    (saturatingMul (saturatingSub (nodeCount.setWidth 32) 1) 10)
  rw [hbase, hspan] at htop
  have hten := saturatingMul_toNat (saturatingAdd (base.setWidth 32)
    (saturatingMul (saturatingSub (nodeCount.setWidth 32) 1) 10)) (10 : U32)
  rw [htop, show (10 : U32).toNat = 10 from rfl] at hten
  by_cases hcount : nodeCount.toNat < 4
  · have hno : ¬4 ≤ nodeCount.toNat := by omega
    simp [validateKeygen, hcount, hno, throw, throwThe, MonadExceptOf.throw, bind, Except.bind]
  by_cases hlarge : 65535 < (saturatingMul (saturatingAdd (base.setWidth 32)
      (saturatingMul (saturatingSub (nodeCount.setWidth 32) 1) 10)) (10 : U32)).toNat
  · simp only [validateKeygen, if_neg hcount, if_pos hlarge]
    refine ⟨fun h => (by cases h), fun h => ?_⟩
    omega
  · simp only [validateKeygen, if_neg hcount, if_neg hlarge]
    refine ⟨fun _ => ⟨by omega, by omega⟩, fun _ => rfl⟩

theorem dagPort_eq {base : U16} {i : ℕ} (h : base.toNat + 10 * i < 2 ^ 16) :
    dagPort base i = .ok (BitVec.ofNat 16 (base.toNat + 10 * i)) := by
  have hi : (BitVec.ofNat 16 i).toNat = i := by
    rw [BitVec.toNat_ofNat]
    exact Nat.mod_eq_of_lt (by omega)
  have hoffset : (saturatingMul (BitVec.ofNat 16 i) 10 : U16).toNat = 10 * i := by
    rw [saturatingMul_toNat, hi, show (10 : U16).toNat = 10 from rfl]
    omega
  simp only [dagPort, hoffset, if_pos h]
  apply congrArg Except.ok
  apply BitVec.eq_of_toNat_eq
  rw [BitVec.toNat_add, hoffset, BitVec.toNat_ofNat]

section Keygen

variable {D : DagCrypto} (io : KeygenIo D) (nodeCount : U64) (host : IpAddr) (base : U16)

structure KeygenIo.Works : Prop where
  createDirAll : io.createDirAll = none
  writeKey : ∀ i, io.writeKey i = none
  loadSigner : ∀ i, io.loadSigner i = none
  writeCommittee : io.writeCommittee = none

def DagCommittee.dagPorts (committee : DagCommittee) : List U16 :=
  committee.authorities.map (·.dagAddress.port)

/-- Key generation that passes its checks gives every validator its port, the stride counted from
the base port without loss, with room for the source port of the mesh; and the default RPC ports fit
and are distinct from each other and from every DAG port. -/
def AssignsPorts : Prop :=
  validateKeygen nodeCount base = .ok () →
    ∃ committee, generateCommittee D io nodeCount host base = .ok committee ∧
      committee.dagPorts.map (·.toNat) =
        (List.range nodeCount.toNat).map (fun i => base.toNat + 10 * i) ∧
      (∀ port ∈ committee.dagPorts, port.toNat * 10 ≤ 65535) ∧
      ∃ rpcPorts : List U16,
        committee.authorities.map (fun entry => validatorRpcPort none entry.dagAddress) =
          rpcPorts.map some ∧
        rpcPorts.map (·.toNat) = committee.dagPorts.map (·.toNat + 1) ∧
        (committee.dagPorts ++ rpcPorts).Nodup

variable {io nodeCount host base}

def generatedEntry (io : KeygenIo D) (host : IpAddr) (base : U16) (i : ℕ) : ValidatorEntry :=
  ⟨"0x" ++ toString (i + 1), ⟨host, BitVec.ofNat 16 (base.toNat + 10 * i)⟩,
    hexEncode (D.toBytes (D.publicKey (io.random i)))⟩

theorem generateEntry_eq (hD : D.Lawful) (hio : io.Works) {i : ℕ}
    (h : base.toNat + 10 * i < 2 ^ 16) :
    generateEntry D io host base i = .ok (generatedEntry io host base i) := by
  simp only [generateEntry, dagPort_eq h, encodePubkey_eq hD, hio.writeKey i, hio.loadSigner i]
  rfl

theorem generateCommittee_eq (hD : D.Lawful) (hio : io.Works)
    (hok : validateKeygen nodeCount base = .ok ())
    (hports : ∀ i < nodeCount.toNat, base.toNat + 10 * i < 2 ^ 16) :
    generateCommittee D io nodeCount host base =
      .ok ⟨(List.range nodeCount.toNat).map (generatedEntry io host base)⟩ := by
  have hloop : (List.range nodeCount.toNat).mapM (generateEntry D io host base) =
      .ok ((List.range nodeCount.toNat).map (generatedEntry io host base)) :=
    Fallible.mapM_eq_ok_map fun i hi => generateEntry_eq hD hio (hports i (List.mem_range.mp hi))
  simp only [generateCommittee, hok, hio.createDirAll, hloop, hio.writeCommittee]
  rfl

theorem port_toNat {n b : ℕ} (h : ∀ i < n, b + 10 * i + 1 < 2 ^ 16) {i c : ℕ} (hi : i < n)
    (hc : c ≤ 1) : (BitVec.ofNat 16 (b + 10 * i + c) : U16).toNat = b + 10 * i + c := by
  have := h i hi
  rw [BitVec.toNat_ofNat]
  exact Nat.mod_eq_of_lt (by omega)

theorem ports_nodup {n b : ℕ} (h : ∀ i < n, b + 10 * i + 1 < 2 ^ 16) :
    ((List.range n).map (fun i => (BitVec.ofNat 16 (b + 10 * i) : U16)) ++
      (List.range n).map (fun i => (BitVec.ofNat 16 (b + 10 * i + 1) : U16))).Nodup := by
  have hinj (c : ℕ) (hc : c ≤ 1) :
      ((List.range n).map fun i => (BitVec.ofNat 16 (b + 10 * i + c) : U16)).Nodup := by
    apply List.Nodup.map_on _ List.nodup_range
    intro i hi j hj heq
    have heq' := congrArg BitVec.toNat heq
    rw [port_toNat h (List.mem_range.mp hi) hc, port_toNat h (List.mem_range.mp hj) hc] at heq'
    omega
  rw [List.nodup_append']
  refine ⟨hinj 0 (by omega), hinj 1 (by omega), ?_⟩
  intro port hdag hrpc
  obtain ⟨i, hi, rfl⟩ := List.mem_map.mp hdag
  obtain ⟨j, hj, heq⟩ := List.mem_map.mp hrpc
  have heq' := congrArg BitVec.toNat heq
  have hdagPort : (BitVec.ofNat 16 (b + 10 * i) : U16).toNat = b + 10 * i :=
    port_toNat h (List.mem_range.mp hi) (Nat.zero_le 1)
  rw [port_toNat h (List.mem_range.mp hj) le_rfl, hdagPort] at heq'
  omega

theorem assignsPorts_of_fits (hD : D.Lawful) (hio : io.Works)
    (hports : ∀ i < nodeCount.toNat, (base.toNat + 10 * i) * 10 ≤ 65535) :
    AssignsPorts io nodeCount host base := by
  intro hok
  have hlt : ∀ i < nodeCount.toNat, base.toNat + 10 * i + 1 < 2 ^ 16 := by
    intro i hi
    have := hports i hi
    omega
  have hport (i : ℕ) (hi : i ∈ List.range nodeCount.toNat) :
      (BitVec.ofNat 16 (base.toNat + 10 * i) : U16).toNat = base.toNat + 10 * i :=
    port_toNat hlt (List.mem_range.mp hi) (Nat.zero_le 1)
  refine ⟨_, generateCommittee_eq hD hio hok fun i hi => by have := hlt i hi; omega, ?_⟩
  have hdag : (⟨(List.range nodeCount.toNat).map (generatedEntry io host base)⟩ :
      DagCommittee).dagPorts =
      (List.range nodeCount.toNat).map fun i => BitVec.ofNat 16 (base.toNat + 10 * i) := by
    simp [DagCommittee.dagPorts, generatedEntry, Function.comp_def]
  rw [hdag]
  refine ⟨?_, ?_, (List.range nodeCount.toNat).map fun i =>
    BitVec.ofNat 16 (base.toNat + 10 * i + 1), ?_, ?_, ports_nodup hlt⟩
  · rw [List.map_map]
    apply List.map_congr_left
    intro i hi
    exact hport i hi
  · intro port hmem
    obtain ⟨i, hi, rfl⟩ := List.mem_map.mp hmem
    have := hports i (List.mem_range.mp hi)
    rw [hport i hi]
    omega
  · simp only [List.map_map]
    apply List.map_congr_left
    intro i hi
    have := hlt i (List.mem_range.mp hi)
    simp only [Function.comp_apply, generatedEntry, validatorRpcPort, checkedSucc, hport i hi,
      if_pos this]
  · simp only [List.map_map]
    apply List.map_congr_left
    intro i hi
    simp only [Function.comp_apply, hport i hi, port_toNat hlt (List.mem_range.mp hi) le_rfl]

/-- Too many validators for ports of 16 bits: the port of number 6554 can not be what it should. -/
theorem not_assignsPorts (hok : validateKeygen nodeCount base = .ok ())
    (hmany : 2 ^ 32 ≤ nodeCount.toNat) : ¬AssignsPorts io nodeCount host base := by
  intro hassigns
  obtain ⟨committee, _, hports, _⟩ := hassigns hok
  have hlen := congrArg List.length hports
  have hget := congrArg (fun l => l[6554]?) hports
  simp only [List.length_map, List.length_range] at hlen
  have hi : 6554 < committee.dagPorts.length := by omega
  have hi' : 6554 < nodeCount.toNat := by omega
  simp only [List.getElem?_map, List.getElem?_eq_getElem hi, List.getElem?_range hi',
    Option.map_some, Option.some.injEq] at hget
  have := (committee.dagPorts[6554]).isLt
  omega

/-- Key generation assigns what its checks promise exactly when the number of validators has 32
bits, or the checks refuse its low 32 bits too. -/
theorem keygen_assignsPorts_iff (hD : D.Lawful) (hio : io.Works) :
    AssignsPorts io nodeCount host base ↔
      nodeCount.toNat < 2 ^ 32 ∨
        65535 < (base.toNat + 10 * (nodeCount.toNat % 2 ^ 32 - 1)) * 10 := by
  constructor
  · intro hassigns
    by_contra hnot
    push Not at hnot
    obtain ⟨hmany, hrange⟩ := hnot
    exact not_assignsPorts
      ((validateKeygen_eq_ok_iff nodeCount base).mpr ⟨by omega, hrange⟩) hmany hassigns
  · intro hcond hok
    obtain ⟨_, hrange⟩ := (validateKeygen_eq_ok_iff nodeCount base).mp hok
    refine assignsPorts_of_fits hD hio (fun i hi => ?_) hok
    omega

end Keygen

def KeygenIo.sample : KeygenIo DagCrypto.sample where
  random i := Fin.ofNat 4 i
  createDirAll := none
  writeKey _ := none
  loadSigner _ := none
  writeCommittee := none

theorem KeygenIo.sample_works : KeygenIo.sample.Works :=
  ⟨rfl, fun _ => rfl, fun _ => rfl, rfl⟩

theorem keygen_assignsPorts_four :
    AssignsPorts KeygenIo.sample 4 (.v4 0x7f000001) 3500 :=
  (keygen_assignsPorts_iff DagCrypto.sample_lawful KeygenIo.sample_works).mpr (by decide)

/-- A count of 2^32 + 4 passes the checks as if it were 4. The source reserves the room for all its
entries next, and may abort there, before it gets to a port that overflows. -/
theorem keygen_truncates_count :
    validateKeygen 4294967300 3500 = .ok () ∧
      ¬AssignsPorts KeygenIo.sample 4294967300 (.v4 0x7f000001) 3500 := by
  have hok : validateKeygen 4294967300 3500 = .ok () := by
    rw [validateKeygen_eq_ok_iff]
    decide
  exact ⟨hok, not_assignsPorts hok (by decide)⟩

end KanariEvm
