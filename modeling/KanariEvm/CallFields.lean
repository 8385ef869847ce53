import KanariEvm.CallTexts

namespace KanariEvm

/-- The value of an optional field; a null is an absent field. -/
def optionalField {α : Type} (obj : JsonFields) (key : String) (parse : Json → Except String α) :
    Except String (Option α) :=
  match obj.lookup key with
  | none => .ok none
  | some .null => .ok none
  | some v => some <$> parse v

theorem takeParsed_ofExcept {α : Type} (obj : JsonFields) (key : String)
    (parse : Json → Except String α) :
    takeParsed obj key (fun v => ofExcept (parse v)) = ofExcept (optionalField obj key parse) := by
  unfold takeParsed optionalField
  generalize obj.lookup key = given
  rcases given with _ | v
  · rfl
  by_cases hnull : v = .null
  · subst hnull
    rfl
  · simp only
    cases parse v <;> rfl

def narrowed : Option U256 → Outcome (Option U128)
  | none => .returned none
  | some u => some <$> u.toU128

theorem takeParsed_gasPrice (obj : JsonFields) :
    takeParsed obj "gasPrice" (fun v => do
      let u ← ofExcept (parseU256 v)
      ExceptT.lift u.toU128) =
    (do
      let price ← ofExcept (optionalField obj "gasPrice" parseU256)
      ExceptT.lift (narrowed price) : Parsed (Option U128)) := by
  unfold takeParsed optionalField
  generalize obj.lookup "gasPrice" = given
  rcases given with _ | v
  · rfl
  by_cases hnull : v = .null
  · subst hnull
    rfl
  simp only
  cases parseU256 v with
  | error e => rfl
  | ok u =>
    change (some <$> ExceptT.lift u.toU128 : Parsed _) = ExceptT.lift (some <$> u.toU128)
    cases u.toU128 <;> rfl

def fieldsToGasPrice (obj : JsonFields) : Except String (CallRequest × Option U256) := do
  let data ← callData obj
  let fromAddr ← optionalField obj "from" parseAddress
  let toAddr ← optionalField obj "to" parseAddress
  let value ← optionalField obj "value" parseU256
  let gas ← optionalField obj "gas" parseU64
  let price ← optionalField obj "gasPrice" parseU256
  return ({ fromAddr, toAddr, data, value, gas }, price)

/-- The fields in three steps: what comes before the narrowing of the gas price, the narrowing,
which alone can panic, and the nonce. -/
theorem callRequestFromJson_eq (obj : JsonFields) :
    callRequestFromJson obj = (do
      let (request, price) ← ofExcept (fieldsToGasPrice obj)
      let gasPrice ← ExceptT.lift (narrowed price)
      let nonce ← ofExcept (optionalField obj "nonce" parseU64)
      return { request with gasPrice, nonce }) := by
  simp only [callRequestFromJson, takeParsed_ofExcept, takeParsed_gasPrice, fieldsToGasPrice,
    Outcome.ofExcept_bind, bind_assoc]
  rfl

def GasPriceTooWide (obj : JsonFields) : Prop :=
  ∃ request u, fieldsToGasPrice obj = .ok (request, some u) ∧ 2 ^ 128 ≤ u.toNat

theorem narrowed_eq_panicked_iff (price : Option U256) :
    narrowed price = .panicked ↔ ∃ u, price = some u ∧ 2 ^ 128 ≤ u.toNat := by
  cases price with
  | none => simp [narrowed]
  | some u =>
    simp only [narrowed, U256.toU128]
    split_ifs with hlt
    · constructor
      · intro h
        cases h
      · rintro ⟨u', hu, hge⟩
        cases hu
        omega
    · exact ⟨fun _ => ⟨u, rfl, Nat.le_of_not_lt hlt⟩, fun _ => rfl⟩

section Run

variable {obj : JsonFields} {e : String} {request : CallRequest} {price : Option U256}
  {gasPrice : Option U128}

theorem run_of_error (h : fieldsToGasPrice obj = .error e) :
    (callRequestFromJson obj).run = .returned (.error e) := by
  rw [callRequestFromJson_eq, h]
  rfl

theorem run_of_panicked (h : fieldsToGasPrice obj = .ok (request, price))
    (hn : narrowed price = .panicked) : (callRequestFromJson obj).run = .panicked := by
  rw [callRequestFromJson_eq, h, Outcome.run_ofExcept_ok_bind]
  simp only [hn]
  rfl

theorem run_of_returned (h : fieldsToGasPrice obj = .ok (request, price))
    (hn : narrowed price = .returned gasPrice) :
    (callRequestFromJson obj).run = .returned ((optionalField obj "nonce" parseU64).map
      fun nonce => { request with gasPrice, nonce }) := by
  rw [callRequestFromJson_eq, h, Outcome.run_ofExcept_ok_bind]
  simp only [hn]
  cases optionalField obj "nonce" parseU64 <;> rfl

theorem callRequestFromJson_eq_panicked_iff (obj : JsonFields) :
    (callRequestFromJson obj).run = .panicked ↔ GasPriceTooWide obj := by
  cases hfields : fieldsToGasPrice obj with
  | error e =>
    rw [run_of_error hfields, GasPriceTooWide, hfields]
    exact ⟨fun h => (by cases h), fun ⟨_, _, h, _⟩ => (by cases h)⟩
  | ok fields =>
    obtain ⟨request, price⟩ := fields
    have hwide : GasPriceTooWide obj ↔ narrowed price = .panicked := by
      rw [narrowed_eq_panicked_iff, GasPriceTooWide, hfields]
      constructor
      · rintro ⟨_, u, heq, hge⟩
        cases heq
        exact ⟨u, rfl, hge⟩
      · rintro ⟨u, rfl, hge⟩
        exact ⟨request, u, rfl, hge⟩
    rw [hwide]
    cases hn : narrowed price with
    | panicked => simp [run_of_panicked hfields hn]
    | returned gasPrice => simp [run_of_returned hfields hn]

end Run

theorem bind_eq_error {ε α β : Type} {x : Except ε α} {f : α → Except ε β} {e : ε}
    (h : (x >>= f) = .error e) : x = .error e ∨ ∃ a, x = .ok a ∧ f a = .error e := by
  cases x with
  | error e' =>
    cases h
    exact .inl rfl
  | ok a => exact .inr ⟨a, rfl, h⟩

def withoutNulls (obj : JsonFields) : JsonFields :=
  obj.filter fun f => !((obj.lookup f.1).any Json.isNull)

theorem lookup_filter_key (p : String → Bool) (obj : JsonFields) (key : String) :
    (obj.filter fun f => p f.1).lookup key = if p key then obj.lookup key else none := by
  induction obj with
  | nil => simp
  | cons f rest ih =>
    obtain ⟨k, v⟩ := f
    by_cases hkey : key = k
    · subst hkey
      by_cases hp : p key
      · simp [hp]
      · simp [hp, ih]
    · have hbeq : (key == k) = false := by simpa using hkey
      by_cases hp : p k
      · simp [hp, List.lookup_cons, hbeq, ih]
      · simp [hp, List.lookup_cons, hbeq, ih]

theorem lookup_withoutNulls (obj : JsonFields) (key : String) :
    (withoutNulls obj).lookup key =
      if (obj.lookup key).any Json.isNull then none else obj.lookup key := by
  rw [withoutNulls, lookup_filter_key (fun k => !((obj.lookup k).any Json.isNull))]
  cases (obj.lookup key).any Json.isNull <;> rfl

theorem optionalField_withoutNulls {α : Type} (obj : JsonFields) (key : String)
    (parse : Json → Except String α) :
    optionalField (withoutNulls obj) key parse = optionalField obj key parse := by
  unfold optionalField
  rw [lookup_withoutNulls]
  generalize obj.lookup key = given
  rcases given with _ | v
  · rfl
  · cases v <;> rfl

/-- The objects where a null of `data` or of its alias makes a difference: a null `data` beside an
alias that is absent, null or parses, or a null alias alone. -/
def NullDataRefused (obj : JsonFields) : Prop :=
  (obj.lookup "data" = some .null ∧
    ∀ v e, obj.lookup "input" = some v → v ≠ .null → parseBytes v ≠ .error e) ∨
  (obj.lookup "data" = none ∧ obj.lookup "input" = some .null)

def bytesMessage : String := "invalid bytes (want 0x-hex)"

theorem parseBytes_error {v : Json} {e : String} (h : parseBytes v = .error e) :
    e = bytesMessage := by
  unfold parseBytes at h
  split at h
  · cases h
  · cases h
    rfl

section Data

variable {obj : JsonFields} {key : String} {v : Json}

theorem lookup_withoutNulls_null (h : obj.lookup key = some .null) :
    (withoutNulls obj).lookup key = none := by
  rw [lookup_withoutNulls, h]
  rfl

theorem lookup_withoutNulls_none (h : obj.lookup key = none) :
    (withoutNulls obj).lookup key = none := by
  rw [lookup_withoutNulls, h]
  rfl

theorem lookup_withoutNulls_some (h : obj.lookup key = some v) (hne : v ≠ .null) :
    (withoutNulls obj).lookup key = some v := by
  have hnot : Json.isNull v = false := by
    cases v with
    | null => exact absurd rfl hne
    | _ => rfl
  rw [lookup_withoutNulls, h, Option.any_some, hnot, if_neg Bool.false_ne_true]

theorem callData_data (h : obj.lookup "data" = some v) :
    callData obj = some <$> parseBytes v := by
  simp only [callData, h]

theorem callData_input (hd : obj.lookup "data" = none) (hi : obj.lookup "input" = some v) :
    callData obj = some <$> parseBytes v := by
  simp only [callData, hd, hi]

theorem callData_absent (hd : obj.lookup "data" = none) (hi : obj.lookup "input" = none) :
    callData obj = .ok none := by
  simp only [callData, hd, hi]

end Data

theorem callData_of_refused {obj : JsonFields} (h : NullDataRefused obj) :
    callData obj = .error bytesMessage ∧ ∃ data, callData (withoutNulls obj) = .ok data := by
  obtain ⟨hdata, hinput⟩ | ⟨hdata, hinput⟩ := h
  · have hdata' := lookup_withoutNulls_null hdata
    refine ⟨callData_data hdata, ?_⟩
    cases hin : obj.lookup "input" with
    | none => exact ⟨none, callData_absent hdata' (lookup_withoutNulls_none hin)⟩
    | some v =>
      by_cases hnull : v = .null
      · subst hnull
        exact ⟨none, callData_absent hdata' (lookup_withoutNulls_null hin)⟩
      cases hparse : parseBytes v with
      | error e => exact absurd hparse (hinput v e hin hnull)
      | ok bytes =>
        refine ⟨some bytes, ?_⟩
        rw [callData_input hdata' (lookup_withoutNulls_some hin hnull), hparse]
        rfl
  · exact ⟨callData_input hdata hinput, none,
      callData_absent (lookup_withoutNulls_none hdata) (lookup_withoutNulls_null hinput)⟩

theorem callData_of_not_refused {obj : JsonFields} (h : ¬NullDataRefused obj) :
    callData (withoutNulls obj) = callData obj := by
  unfold NullDataRefused at h
  push Not at h
  obtain ⟨hdata, halias⟩ := h
  cases hd : obj.lookup "data" with
  | none =>
    have hd' := lookup_withoutNulls_none hd
    cases hi : obj.lookup "input" with
    | none => rw [callData_absent hd hi, callData_absent hd' (lookup_withoutNulls_none hi)]
    | some v =>
      have hne : v ≠ .null := by
        rintro rfl
        exact halias hd hi
      rw [callData_input hd hi, callData_input hd' (lookup_withoutNulls_some hi hne)]
  | some v =>
    by_cases hnull : v = .null
    · subst hnull
      obtain ⟨w, e, hw, hne, herr⟩ := hdata hd
      rw [callData_data hd, callData_input (lookup_withoutNulls_null hd)
        (lookup_withoutNulls_some hw hne), herr, parseBytes_error herr]
      rfl
    · rw [callData_data hd, callData_data (lookup_withoutNulls_some hd hnull)]

/-- Nulls make no other difference. -/
theorem run_withoutNulls {obj : JsonFields} (h : callData (withoutNulls obj) = callData obj) :
    (callRequestFromJson (withoutNulls obj)).run = (callRequestFromJson obj).run := by
  have hfields : fieldsToGasPrice (withoutNulls obj) = fieldsToGasPrice obj := by
    simp only [fieldsToGasPrice, h, optionalField_withoutNulls]
  rw [callRequestFromJson_eq, callRequestFromJson_eq, hfields, optionalField_withoutNulls]

theorem optionalField_error {α : Type} {obj : JsonFields} {key : String}
    {parse : Json → Except String α} {e : String} (h : optionalField obj key parse = .error e) :
    ∃ v, parse v = .error e := by
  unfold optionalField at h
  split at h
  · cases h
  · cases h
  · rename_i v _ _
    refine ⟨v, ?_⟩
    cases hv : parse v with
    | ok a =>
      rw [hv] at h
      cases h
    | error e' =>
      rw [hv] at h
      cases h
      rfl

theorem parseAddress_error {v : Json} {e : String} (h : parseAddress v = .error e) :
    e ≠ bytesMessage := by
  unfold parseAddress at h
  split at h
  · cases h
  · cases h
    decide

theorem parseU256_error {v : Json} {e : String} (h : parseU256 v = .error e) :
    e ≠ bytesMessage := by
  unfold parseU256 at h
  split at h
  · cases h
    decide
  · split at h
    · cases h
    · cases h
      decide

theorem parseU64_error {v : Json} {e : String} (h : parseU64 v = .error e) :
    e ≠ bytesMessage := by
  unfold parseU64 at h
  split at h
  · cases h
    decide
  · split at h
    · cases h
    · cases h
      decide

theorem run_error_ne {obj : JsonFields} {data : Option Bytes} (hdata : callData obj = .ok data) :
    (callRequestFromJson obj).run ≠ .returned (.error bytesMessage) := by
  have haddr (key : String) : optionalField obj key parseAddress ≠ .error bytesMessage := by
    intro h
    obtain ⟨v, hv⟩ := optionalField_error h
    exact parseAddress_error hv rfl
  have h256 (key : String) : optionalField obj key parseU256 ≠ .error bytesMessage := by
    intro h
    obtain ⟨v, hv⟩ := optionalField_error h
    exact parseU256_error hv rfl
  have h64 (key : String) : optionalField obj key parseU64 ≠ .error bytesMessage := by
    intro h
    obtain ⟨v, hv⟩ := optionalField_error h
    exact parseU64_error hv rfl
  intro hrun
  cases hfields : fieldsToGasPrice obj with
  | error e =>
    rw [run_of_error hfields] at hrun
    have he : e = bytesMessage := Except.error.inj (Outcome.returned.inj hrun)
    subst he
    simp only [fieldsToGasPrice, hdata] at hfields
    obtain h | ⟨_, _, hfields⟩ := bind_eq_error hfields
    · cases h
    obtain h | ⟨_, _, hfields⟩ := bind_eq_error hfields
    · exact haddr _ h
    obtain h | ⟨_, _, hfields⟩ := bind_eq_error hfields
    · exact haddr _ h
    obtain h | ⟨_, _, hfields⟩ := bind_eq_error hfields
    · exact h256 _ h
    obtain h | ⟨_, _, hfields⟩ := bind_eq_error hfields
    · exact h64 _ h
    obtain h | ⟨_, _, hfields⟩ := bind_eq_error hfields
    · exact h256 _ h
    · cases hfields
  | ok fields =>
    obtain ⟨request, price⟩ := fields
    cases hn : narrowed price with
    | panicked =>
      rw [run_of_panicked hfields hn] at hrun
      cases hrun
    | returned gasPrice =>
      rw [run_of_returned hfields hn] at hrun
      cases hnonce : optionalField obj "nonce" parseU64 with
      | error e =>
        rw [hnonce] at hrun
        have he : e = bytesMessage := Except.error.inj (Outcome.returned.inj hrun)
        exact h64 _ (he ▸ hnonce)
      | ok nonce =>
        rw [hnonce] at hrun
        cases hrun

theorem run_withoutNulls_eq_iff (obj : JsonFields) :
    (callRequestFromJson (withoutNulls obj)).run = (callRequestFromJson obj).run ↔
      ¬NullDataRefused obj := by
  constructor
  · intro hrun hrefused
    obtain ⟨herror, data, hok⟩ := callData_of_refused hrefused
    have hfields : fieldsToGasPrice obj = .error bytesMessage := by
      simp only [fieldsToGasPrice, herror]
      rfl
    rw [run_of_error hfields] at hrun
    exact run_error_ne hok hrun
  · intro h
    exact run_withoutNulls (callData_of_not_refused h)

def FieldDenotes {α : Type} (given : Option Json) (denotes : List Char → α → Prop)
    (value : Option α) : Prop :=
  (value = none ∧ (given = none ∨ given = some .null)) ∨
    ∃ s a, given = some (.str s) ∧ value = some a ∧ denotes s a

/-- The field that the call data comes from: a null `data` leaves `input` in effect. -/
def dataOrInput (obj : JsonFields) : Option Json :=
  match obj.lookup "data" with
  | none => obj.lookup "input"
  | some .null => obj.lookup "input"
  | some v => some v

def Denotes {w : ℕ} (text : List Char) (n : BitVec w) : Prop := denoted text = some n.toNat

structure DenotesFields (obj : JsonFields) (request : CallRequest) : Prop where
  data : FieldDenotes (dataOrInput obj) Spells request.data
  fromAddr : FieldDenotes (obj.lookup "from") Denotes request.fromAddr
  toAddr : FieldDenotes (obj.lookup "to") Denotes request.toAddr
  value : FieldDenotes (obj.lookup "value") Denotes request.value
  gas : FieldDenotes (obj.lookup "gas") Denotes request.gas
  gasPrice : FieldDenotes (obj.lookup "gasPrice") Denotes request.gasPrice
  nonce : FieldDenotes (obj.lookup "nonce") Denotes request.nonce

def fieldWidths : List (String × ℕ) :=
  [("value", 256), ("gas", 64), ("gasPrice", 128), ("nonce", 64)]

/-- The parameters are parsed totally and uniformly: without a panic, with a null like an absent
field, with the values that the texts say, and with an error for a value that does not fit. -/
structure ParsesUniformly (obj : JsonFields) : Prop where
  returns : (callRequestFromJson obj).run ≠ .panicked
  nulls : (callRequestFromJson (withoutNulls obj)).run = (callRequestFromJson obj).run
  denotes : ∀ request, (callRequestFromJson obj).run = .returned (.ok request) →
    DenotesFields obj request
  tooWide : ∀ field ∈ fieldWidths, ∀ s n, obj.lookup field.1 = some (.str s) →
    denoted s = some n → 2 ^ field.2 ≤ n →
    ∃ e, (callRequestFromJson obj).run = .returned (.error e)

theorem fieldDenotes_of_optionalField {α : Type} {obj : JsonFields} {key : String}
    {parse : Json → Except String α} {denotes : List Char → α → Prop} {value : Option α}
    (hparse : ∀ v a, parse v = .ok a → ∃ s, v = .str s ∧ denotes s a)
    (h : optionalField obj key parse = .ok value) :
    FieldDenotes (obj.lookup key) denotes value := by
  unfold optionalField at h
  split at h
  · rename_i hgiven
    cases h
    exact .inl ⟨rfl, .inl hgiven⟩
  · rename_i hgiven
    cases h
    exact .inl ⟨rfl, .inr hgiven⟩
  · rename_i v _ hgiven
    cases hv : parse v with
    | error e =>
      rw [hv] at h
      cases h
    | ok a =>
      rw [hv] at h
      cases h
      obtain ⟨s, rfl, hdenotes⟩ := hparse v a hv
      exact .inr ⟨s, a, hgiven, rfl, hdenotes⟩

theorem map_parseBytes_ok {v : Json} {data : Option Bytes}
    (h : some <$> parseBytes v = .ok data) : ∃ s bytes, v = .str s ∧ data = some bytes ∧
      Spells s bytes := by
  cases hv : parseBytes v with
  | error e =>
    rw [hv] at h
    cases h
  | ok bytes =>
    rw [hv] at h
    cases h
    obtain ⟨s, rfl, hspells⟩ := spells_of_parseBytes hv
    exact ⟨s, bytes, rfl, rfl, hspells⟩

theorem fieldDenotes_of_callData {obj : JsonFields} {data : Option Bytes}
    (h : callData obj = .ok data) : FieldDenotes (dataOrInput obj) Spells data := by
  cases hd : obj.lookup "data" with
  | some v =>
    rw [callData_data hd] at h
    obtain ⟨s, bytes, rfl, rfl, hspells⟩ := map_parseBytes_ok h
    exact .inr ⟨s, bytes, by simp only [dataOrInput, hd], rfl, hspells⟩
  | none =>
    have hinput : dataOrInput obj = obj.lookup "input" := by simp only [dataOrInput, hd]
    cases hi : obj.lookup "input" with
    | none =>
      rw [callData_absent hd hi] at h
      cases h
      exact .inl ⟨rfl, .inl (hinput.trans hi)⟩
    | some v =>
      rw [callData_input hd hi] at h
      obtain ⟨s, bytes, rfl, rfl, hspells⟩ := map_parseBytes_ok h
      exact .inr ⟨s, bytes, hinput.trans hi, rfl, hspells⟩

theorem denotes_narrowed {given : Option Json} {price : Option U256} {gasPrice : Option U128}
    (h : FieldDenotes given Denotes price) (hn : narrowed price = .returned gasPrice) :
    FieldDenotes given Denotes gasPrice := by
  obtain ⟨rfl, hgiven⟩ | ⟨s, u, hgiven, rfl, hdenotes⟩ := h
  · cases hn
    exact .inl ⟨rfl, hgiven⟩
  · simp only [narrowed, U256.toU128] at hn
    split_ifs at hn with hlt
    · cases hn
      refine .inr ⟨s, u.setWidth 128, hgiven, rfl, ?_⟩
      rw [Denotes, BitVec.toNat_setWidth, Nat.mod_eq_of_lt hlt]
      exact hdenotes

theorem denotesFields_of_ok {obj : JsonFields} {request : CallRequest}
    (h : (callRequestFromJson obj).run = .returned (.ok request)) : DenotesFields obj request := by
  cases hfields : fieldsToGasPrice obj with
  | error e =>
    rw [run_of_error hfields] at h
    cases h
  | ok fields =>
    obtain ⟨first, price⟩ := fields
    cases hn : narrowed price with
    | panicked =>
      rw [run_of_panicked hfields hn] at h
      cases h
    | returned gasPrice =>
      rw [run_of_returned hfields hn] at h
      cases hnonce : optionalField obj "nonce" parseU64 with
      | error e =>
        rw [hnonce] at h
        cases h
      | ok nonce =>
        rw [hnonce] at h
        cases h
        unfold fieldsToGasPrice at hfields
        obtain ⟨data, hdata, hfields⟩ := bind_eq_ok hfields
        obtain ⟨fromAddr, hfrom, hfields⟩ := bind_eq_ok hfields
        obtain ⟨toAddr, hto, hfields⟩ := bind_eq_ok hfields
        obtain ⟨value, hvalue, hfields⟩ := bind_eq_ok hfields
        obtain ⟨gas, hgas, hfields⟩ := bind_eq_ok hfields
        obtain ⟨price', hprice, hfields⟩ := bind_eq_ok hfields
        cases hfields
        exact {
          data := fieldDenotes_of_callData hdata
          fromAddr := fieldDenotes_of_optionalField (fun _ _ => denoted_of_parseAddress) hfrom
          toAddr := fieldDenotes_of_optionalField (fun _ _ => denoted_of_parseAddress) hto
          value := fieldDenotes_of_optionalField (fun _ _ => denoted_of_parseU256) hvalue
          gas := fieldDenotes_of_optionalField (fun _ _ => denoted_of_parseU64) hgas
          gasPrice := denotes_narrowed
            (fieldDenotes_of_optionalField (fun _ _ => denoted_of_parseU256) hprice) hn
          nonce := fieldDenotes_of_optionalField (fun _ _ => denoted_of_parseU64) hnonce }

theorem FieldDenotes.fits {w : ℕ} {given : Option Json} {value : Option (BitVec w)} {s : List Char}
    {n : ℕ} (h : FieldDenotes given Denotes value) (hgiven : given = some (.str s))
    (hn : denoted s = some n) : n < 2 ^ w := by
  obtain ⟨_, habsent | hnull⟩ | ⟨s', a, hs', _, hdenotes⟩ := h
  · rw [habsent] at hgiven
    cases hgiven
  · rw [hnull] at hgiven
    cases hgiven
  · rw [hs'] at hgiven
    cases hgiven
    rw [Denotes, hn] at hdenotes
    cases hdenotes
    exact a.isLt

theorem tooWide_of_returns {obj : JsonFields} (hreturns : (callRequestFromJson obj).run ≠ .panicked)
    {field : String × ℕ} (hfield : field ∈ fieldWidths) {s : List Char} {n : ℕ}
    (hgiven : obj.lookup field.1 = some (.str s)) (hn : denoted s = some n)
    (hwide : 2 ^ field.2 ≤ n) : ∃ e, (callRequestFromJson obj).run = .returned (.error e) := by
  cases hrun : (callRequestFromJson obj).run with
  | panicked => exact absurd hrun hreturns
  | returned result =>
    cases result with
    | error e => exact ⟨e, rfl⟩
    | ok request =>
      have hdenotes := denotesFields_of_ok hrun
      simp only [fieldWidths, List.mem_cons, List.not_mem_nil, or_false] at hfield
      obtain rfl | rfl | rfl | rfl := hfield
      · exact absurd (hdenotes.value.fits hgiven hn) (Nat.not_lt.mpr hwide)
      · exact absurd (hdenotes.gas.fits hgiven hn) (Nat.not_lt.mpr hwide)
      · exact absurd (hdenotes.gasPrice.fits hgiven hn) (Nat.not_lt.mpr hwide)
      · exact absurd (hdenotes.nonce.fits hgiven hn) (Nat.not_lt.mpr hwide)

/-- The parameters of a call are parsed totally and uniformly exactly when no null of the data is
refused and no gas price that is read is wider than 128 bits. -/
theorem parsesUniformly_iff (obj : JsonFields) :
    ParsesUniformly obj ↔ ¬NullDataRefused obj ∧ ¬GasPriceTooWide obj := by
  rw [← run_withoutNulls_eq_iff, ← callRequestFromJson_eq_panicked_iff]
  constructor
  · intro h
    exact ⟨h.nulls, h.returns⟩
  · rintro ⟨hnulls, hreturns⟩
    exact {
      returns := hreturns
      nulls := hnulls
      denotes := fun _ => denotesFields_of_ok
      tooWide := fun _ hfield _ _ hgiven hn hwide =>
        tooWide_of_returns hreturns hfield hgiven hn hwide }

/-- A null `data` hides a valid `input`, and a gas price of 2^128 panics. -/
theorem call_params_not_uniform :
    (callRequestFromJson [("data", .null), ("input", .text "0x00")]).run =
        .returned (.error "invalid bytes (want 0x-hex)") ∧
      ¬ParsesUniformly [("data", .null), ("input", .text "0x00")] ∧
      (callRequestFromJson
        [("gasPrice", .text "0x100000000000000000000000000000000")]).run = .panicked ∧
      ¬ParsesUniformly [("gasPrice", .text "0x100000000000000000000000000000000")] := by
  have hnull : (callRequestFromJson [("data", .null), ("input", .text "0x00")]).run =
      .returned (.error "invalid bytes (want 0x-hex)") := rfl
  have hwide : (callRequestFromJson
      [("gasPrice", .text "0x100000000000000000000000000000000")]).run = .panicked := by
    decide +kernel
  refine ⟨hnull, fun h => ?_, hwide, fun h => h.returns hwide⟩
  have := h.nulls
  rw [hnull] at this
  revert this
  decide +kernel

end KanariEvm
