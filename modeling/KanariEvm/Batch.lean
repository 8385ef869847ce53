import KanariEvm.ArmPanics
import KanariEvm.Estimate

namespace KanariEvm.Server

variable {P : Platform} {W : Wallet} {ratio : U64 × U64 → List Char}

/-- The text is short enough to be logged whole, or the cut falls between two characters. -/
def CutsClean (params : Json) : Prop :=
  (utf8 params.write).length ≤ summaryMax ∨
    ∃ head tail, params.write = head ++ tail ∧ (head.map Char.utf8Size).sum = summaryMax

def loggedParams (fields : JsonFields) : Json := (fields.lookup "params").getD .null

theorem summarize_eq_panicked_iff (v : Json) : summarize v = .panicked ↔ ¬CutsClean v := by
  simp only [summarize, CutsClean]
  split_ifs with hlong
  · have hcut : (do
        let head ← Outcome.textTo summaryMax v.write
        return head ++ "…(".toList ++ Nat.toDigits 10 (utf8 v.write).length ++ "B)".toList) =
          Outcome.panicked ↔ Outcome.textTo summaryMax v.write = .panicked := by
      cases Outcome.textTo summaryMax v.write <;> simp
    rw [hcut, Outcome.textTo_eq_panicked_iff, not_or]
    exact ⟨fun h => ⟨Nat.not_le.mpr hlong, h⟩, fun h => h.2⟩
  · refine iff_of_false nofun (not_not_intro (.inl ?_))
    omega

theorem logBody_obj (fields : JsonFields) :
    logBody (.obj fields) = .returned () ∧ CutsClean (loggedParams fields) ∨
      logBody (.obj fields) = .panicked ∧ ¬CutsClean (loggedParams fields) := by
  have hiff := summarize_eq_panicked_iff (loggedParams fields)
  simp only [logBody]
  rw [← loggedParams]
  cases hs : summarize (loggedParams fields) with
  | panicked => exact .inr ⟨rfl, hiff.mp hs⟩
  | returned text =>
    refine .inl ⟨rfl, ?_⟩
    by_contra hcut
    rw [hiff.mpr hcut] at hs
    cases hs

def Served (P : Platform) (W : Wallet) (node : KanariNode) (item : Json) : Prop :=
  ∀ req method, RpcRequest.fromValue item = some req →
    methodNames.lookup (String.ofList req.method) = some method →
    ¬ArmPanics P W node req.params method

variable (ratio) in
theorem handleItem_ne_panicked_iff {node : KanariNode} (io : RpcIo) {item : Json} :
    handleItem P W ratio node io item ≠ .panicked ↔ Served P W node item := by
  unfold handleItem Served
  cases RpcRequest.fromValue item with
  | none => exact iff_of_true nofun nofun
  | some req =>
    simp only [dispatch]
    cases hm : methodNames.lookup (String.ofList req.method) with
    | none =>
      refine iff_of_true nofun fun req' method hreq hmethod => ?_
      cases hreq
      rw [hm] at hmethod
      cases hmethod
    | some method =>
      have hiff := arm_eq_panicked_iff P W ratio io node req.params method
      constructor
      · intro h req' method' hreq hmethod hpanics
        cases hreq
        rw [hm] at hmethod
        cases hmethod
        exact h (by simp only [hiff.mpr hpanics, Outcome.panicked_bind])
      · intro h hpanics
        refine h req method rfl hm (hiff.mp ?_)
        cases harm : arm P W ratio io node req.params method with
        | panicked => rfl
        | returned out =>
          simp only [harm] at hpanics
          cases hpanics

theorem handleItem_response {node node' : KanariNode} {io : RpcIo} {item response : Json}
    (h : handleItem P W ratio node io item = .returned (node', response)) :
    (∃ fields, response = .obj fields) ∧
      ∀ req, RpcRequest.fromValue item = some req → response.get "id" = some req.id := by
  unfold handleItem at h
  cases hreq : RpcRequest.fromValue item with
  | none =>
    simp only [hreq, Outcome.returned.injEq, Prod.mk.injEq] at h
    obtain ⟨-, rfl⟩ := h
    exact ⟨⟨_, rfl⟩, nofun⟩
  | some req =>
    simp only [hreq, dispatch] at h
    have hresponse : (∃ e : RpcError, response = err req.id e.code e.message) ∨
        ∃ result, response = ok req.id result := by
      split at h
      · cases h
        exact .inl ⟨⟨_, _⟩, rfl⟩
      · rename_i method hm
        cases harm : arm P W ratio io node req.params method with
        | panicked =>
          rw [harm] at h
          cases h
        | returned out =>
          obtain ⟨after, e | result⟩ := out
          · rw [harm] at h
            cases h
            exact .inl ⟨e, rfl⟩
          · rw [harm] at h
            cases h
            exact .inr ⟨result, rfl⟩
    rcases hresponse with ⟨e, rfl⟩ | ⟨result, rfl⟩
    · refine ⟨⟨_, rfl⟩, ?_⟩
      intro req' hreq'
      cases hreq'
      rfl
    · refine ⟨⟨_, rfl⟩, ?_⟩
      intro req' hreq'
      cases hreq'
      rfl

theorem handleItem_malformed {item : Json} (h : RpcRequest.fromValue item = none)
    (node : KanariNode) (io : RpcIo) :
    handleItem P W ratio node io item = .returned (node, parseError) := by
  simp only [handleItem, h]

def submitEach (P : Platform) (W : Wallet) (ratio : U64 × U64 → List Char) (node : KanariNode)
    (io : ℕ → RpcIo) : List Json → Outcome (KanariNode × List Json)
  | [] => .returned (node, [])
  | item :: items => do
    let (node, response) ← innerHandleRpc P W ratio node io item
    let (node, responses) ← submitEach P W ratio node (fun i => io (i + 1)) items
    return (node, response :: responses)

/-- What happens outside, without what happens at one position. -/
def skip (io : ℕ → RpcIo) (k : ℕ) : ℕ → RpcIo := fun i => if i < k then io i else io (i + 1)

/-- A body is answered; a batch is answered item by item as single requests would be, the responses
carry the ids of the requests, and an item that is no request does not affect the others. -/
structure AnswersAlike (P : Platform) (W : Wallet) (ratio : U64 × U64 → List Char)
    (node : KanariNode) (io : ℕ → RpcIo) (body : Json) : Prop where
  answered : ∃ node' response, innerHandleRpc P W ratio node io body = .returned (node', response)
  batch : ∀ items, body = .arr items → items ≠ [] → ∃ node' responses,
    innerHandleRpc P W ratio node io body = .returned (node', .arr responses) ∧
    responses.length = items.length ∧
    submitEach P W ratio node io items = .returned (node', responses) ∧
    List.Forall₂ (fun item response => ∀ req, RpcRequest.fromValue item = some req →
      response.get "id" = some req.id) items responses ∧
    ∀ before bad after, items = before ++ bad :: after → RpcRequest.fromValue bad = none →
      ∃ first last, responses = first ++ parseError :: last ∧ first.length = before.length ∧
        handleBatch P W ratio node (skip io before.length) (before ++ after) =
          .returned (node', first ++ last)

/-- Every item is an object whose parameters are cut cleanly, and dispatching it does not panic in
the state that the items before it left. -/
def Uniform (P : Platform) (W : Wallet) (ratio : U64 × U64 → List Char) :
    KanariNode → (ℕ → RpcIo) → List Json → Prop
  | _, _, [] => True
  | node, io, item :: items =>
    (∃ fields, item = .obj fields ∧ CutsClean (loggedParams fields)) ∧ Served P W node item ∧
      ∀ node' response, handleItem P W ratio node (io 0) item = .returned (node', response) →
        Uniform P W ratio node' (fun i => io (i + 1)) items

theorem innerHandleRpc_obj {fields : JsonFields} (h : CutsClean (loggedParams fields))
    (node : KanariNode) (io : ℕ → RpcIo) : innerHandleRpc P W ratio node io (.obj fields) =
      handleItem P W ratio node (io 0) (.obj fields) := by
  rcases logBody_obj fields with ⟨hlog, -⟩ | ⟨-, hcut⟩
  · simp only [innerHandleRpc, hlog, Outcome.returned_bind]
  · exact absurd h hcut

theorem innerHandleRpc_obj_of_not {fields : JsonFields} (h : ¬CutsClean (loggedParams fields))
    (node : KanariNode) (io : ℕ → RpcIo) :
    innerHandleRpc P W ratio node io (.obj fields) = .panicked := by
  rcases logBody_obj fields with ⟨-, hcut⟩ | ⟨hlog, -⟩
  · exact absurd hcut h
  · simp only [innerHandleRpc, hlog, Outcome.panicked_bind]

theorem innerHandleRpc_arr {items : List Json} (h : items ≠ []) (node : KanariNode)
    (io : ℕ → RpcIo) : innerHandleRpc P W ratio node io (.arr items) = (do
      let (node, responses) ← handleBatch P W ratio node io items
      return (node, .arr responses)) := by
  cases items with
  | nil => exact absurd rfl h
  | cons item items => rfl

theorem submitEach_of_uniform {node : KanariNode} {io : ℕ → RpcIo} {items : List Json}
    (h : Uniform P W ratio node io items) : ∃ node' responses,
      handleBatch P W ratio node io items = .returned (node', responses) ∧
        submitEach P W ratio node io items = .returned (node', responses) := by
  induction items generalizing node io with
  | nil => exact ⟨node, [], rfl, rfl⟩
  | cons item items ih =>
    obtain ⟨⟨fields, rfl, hclean⟩, hserved, hrest⟩ := h
    obtain ⟨⟨mid, response⟩, hitem⟩ :=
      Outcome.exists_returned ((handleItem_ne_panicked_iff ratio (io 0)).mpr hserved)
    obtain ⟨node', responses, hbatch, hsingle⟩ := ih (hrest mid response hitem)
    refine ⟨node', response :: responses, ?_, ?_⟩
    · simp only [handleBatch, hitem, Outcome.returned_bind, hbatch, Outcome.pure_def]
    · simp only [submitEach, innerHandleRpc_obj hclean, hitem, Outcome.returned_bind, hsingle,
        Outcome.pure_def]

theorem handleBatch_cons {node node' : KanariNode} {io : ℕ → RpcIo} {item : Json}
    {items responses : List Json}
    (h : handleBatch P W ratio node io (item :: items) = .returned (node', responses)) :
    ∃ mid response rest, handleItem P W ratio node (io 0) item = .returned (mid, response) ∧
      handleBatch P W ratio mid (fun i => io (i + 1)) items = .returned (node', rest) ∧
      responses = response :: rest := by
  obtain ⟨⟨mid, response⟩, hitem, h⟩ := Outcome.bind_eq_returned_iff.mp h
  obtain ⟨⟨last, rest⟩, hrest, h⟩ := Outcome.bind_eq_returned_iff.mp h
  cases h
  exact ⟨mid, response, rest, hitem, hrest, rfl⟩

theorem submitEach_cons {node node' : KanariNode} {io : ℕ → RpcIo} {item : Json}
    {items responses : List Json}
    (h : submitEach P W ratio node io (item :: items) = .returned (node', responses)) :
    ∃ mid response rest, innerHandleRpc P W ratio node io item = .returned (mid, response) ∧
      submitEach P W ratio mid (fun i => io (i + 1)) items = .returned (node', rest) ∧
      responses = response :: rest := by
  obtain ⟨⟨mid, response⟩, hitem, h⟩ := Outcome.bind_eq_returned_iff.mp h
  obtain ⟨⟨last, rest⟩, hrest, h⟩ := Outcome.bind_eq_returned_iff.mp h
  cases h
  exact ⟨mid, response, rest, hitem, hrest, rfl⟩

theorem parseError_ne_invalidRequest : parseError ≠ invalidRequest := by
  intro h
  have hmessage := congrArg
    (fun v => ((v.get "error").bind (·.get "message")).bind Json.asStr) h
  revert hmessage
  decide

/-- An item that gets the same response in a batch and on its own is an object, cut cleanly. -/
theorem object_of_same_response {node mid mid' : KanariNode} {io : ℕ → RpcIo}
    {item response : Json}
    (hitem : handleItem P W ratio node (io 0) item = .returned (mid, response))
    (halone : innerHandleRpc P W ratio node io item = .returned (mid', response)) :
    (∃ fields, item = .obj fields ∧ CutsClean (loggedParams fields)) ∧ mid' = mid := by
  have hscalar : RpcRequest.fromValue item = none →
      innerHandleRpc P W ratio node io item = .returned (node, invalidRequest) → False := by
    intro hnone hinvalid
    rw [handleItem_malformed hnone, Outcome.returned.injEq, Prod.mk.injEq] at hitem
    rw [hinvalid, Outcome.returned.injEq, Prod.mk.injEq] at halone
    exact parseError_ne_invalidRequest (hitem.2.trans halone.2.symm)
  cases item with
  | obj fields =>
    by_cases hclean : CutsClean (loggedParams fields)
    · rw [innerHandleRpc_obj hclean, hitem] at halone
      cases halone
      exact ⟨⟨fields, rfl, hclean⟩, rfl⟩
    · rw [innerHandleRpc_obj_of_not hclean] at halone
      cases halone
  | arr items =>
    -- on its own it is a batch, whose response is an array
    obtain ⟨⟨fields, rfl⟩, -⟩ := handleItem_response hitem
    cases items with
    | nil => cases halone
    | cons head rest =>
      rw [innerHandleRpc_arr (List.cons_ne_nil head rest)] at halone
      obtain ⟨out, -, hout⟩ := Outcome.bind_eq_returned_iff.mp halone
      cases hout
  | null => exact (hscalar rfl rfl).elim
  | bool b => exact (hscalar rfl rfl).elim
  | num n => exact (hscalar rfl rfl).elim
  | real text => exact (hscalar rfl rfl).elim
  | str s => exact (hscalar rfl rfl).elim

theorem uniform_of_submitEach {node node' node'' : KanariNode} {io : ℕ → RpcIo}
    {items responses : List Json}
    (hbatch : handleBatch P W ratio node io items = .returned (node', responses))
    (heach : submitEach P W ratio node io items = .returned (node'', responses)) :
    Uniform P W ratio node io items := by
  induction items generalizing node io responses with
  | nil => trivial
  | cons item items ih =>
    obtain ⟨mid, response, rest, hitem, hrest, rfl⟩ := handleBatch_cons hbatch
    obtain ⟨mid', response', rest', halone, hrest', hsame⟩ := submitEach_cons heach
    obtain ⟨rfl, rfl⟩ := List.cons.inj hsame
    obtain ⟨hobject, rfl⟩ := object_of_same_response hitem halone
    refine ⟨hobject, (handleItem_ne_panicked_iff ratio (io 0)).mp (by rw [hitem]; nofun), ?_⟩
    intro mid' response' hitem'
    rw [hitem] at hitem'
    cases hitem'
    exact ih hrest hrest'

theorem handleBatch_ids {node node' : KanariNode} {io : ℕ → RpcIo} {items responses : List Json}
    (h : handleBatch P W ratio node io items = .returned (node', responses)) :
    List.Forall₂ (fun item response => ∀ req, RpcRequest.fromValue item = some req →
      response.get "id" = some req.id) items responses := by
  induction items generalizing node io responses with
  | nil =>
    cases h
    exact .nil
  | cons item items ih =>
    obtain ⟨mid, response, rest, hitem, hrest, rfl⟩ := handleBatch_cons h
    exact .cons (handleItem_response hitem).2 (ih hrest)

theorem handleBatch_without {node node' : KanariNode} {io : ℕ → RpcIo}
    {before after responses : List Json} {bad : Json} (hbad : RpcRequest.fromValue bad = none)
    (h : handleBatch P W ratio node io (before ++ bad :: after) = .returned (node', responses)) :
    ∃ first last, responses = first ++ parseError :: last ∧ first.length = before.length ∧
      handleBatch P W ratio node (skip io before.length) (before ++ after) =
        .returned (node', first ++ last) := by
  induction before generalizing node io responses with
  | nil =>
    obtain ⟨mid, response, rest, hitem, hrest, rfl⟩ := handleBatch_cons h
    rw [handleItem_malformed hbad] at hitem
    cases hitem
    have hskip : skip io 0 = fun i => io (i + 1) := by
      funext i
      simp only [skip, Nat.not_lt_zero, if_false]
    refine ⟨[], rest, rfl, rfl, ?_⟩
    rw [List.length_nil, hskip]
    exact hrest
  | cons item before ih =>
    obtain ⟨mid, response, rest, hitem, hrest, rfl⟩ := handleBatch_cons h
    obtain ⟨first, last, rfl, hlength, hwithout⟩ := ih hrest
    have hskip : (fun i => skip io (before.length + 1) (i + 1)) =
        skip (fun i => io (i + 1)) before.length := by
      funext i
      simp only [skip, Nat.add_lt_add_iff_right]
    refine ⟨response :: first, last, rfl, by rw [List.length_cons, hlength, List.length_cons], ?_⟩
    have hfirst : skip io (before.length + 1) 0 = io 0 := by
      simp only [skip, Nat.zero_lt_succ, if_true]
    simp only [List.length_cons, List.cons_append, handleBatch, hfirst, hitem,
      Outcome.returned_bind, hskip, hwithout, Outcome.pure_def]

/-- When a body is answered, and a batch like its items on their own. -/
def Regular (P : Platform) (W : Wallet) (ratio : U64 × U64 → List Char) (node : KanariNode)
    (io : ℕ → RpcIo) : Json → Prop
  | .obj fields => CutsClean (loggedParams fields) ∧ Served P W node (.obj fields)
  | .arr items => Uniform P W ratio node io items
  | _ => True

theorem answersAlike_arr {node : KanariNode} {io : ℕ → RpcIo} {items : List Json}
    (h : Uniform P W ratio node io items) : AnswersAlike P W ratio node io (.arr items) := by
  obtain ⟨node', responses, hbatch, heach⟩ := submitEach_of_uniform h
  have hbody : items ≠ [] →
      innerHandleRpc P W ratio node io (.arr items) = .returned (node', .arr responses) := by
    intro hne
    rw [innerHandleRpc_arr hne, hbatch]
    rfl
  constructor
  · cases items with
    | nil => exact ⟨node, emptyBatch, rfl⟩
    | cons item rest => exact ⟨node', _, hbody (List.cons_ne_nil item rest)⟩
  · intro items' hitems hne
    cases hitems
    have hids := handleBatch_ids hbatch
    refine ⟨node', responses, hbody hne, hids.length_eq.symm, heach, hids, ?_⟩
    intro before bad after hsplit hbad
    rw [hsplit] at hbatch
    exact handleBatch_without hbad hbatch

/-- A body is answered, and a batch like its items on their own, exactly when no log line cuts a
character in two, every item of a batch is an object and no arm panics. -/
theorem answersAlike_iff (P : Platform) (W : Wallet) (ratio : U64 × U64 → List Char)
    (node : KanariNode) (io : ℕ → RpcIo) (body : Json) :
    AnswersAlike P W ratio node io body ↔ Regular P W ratio node io body := by
  have hscalar : ∀ body : Json, (∀ items, body ≠ .arr items) →
      innerHandleRpc P W ratio node io body = .returned (node, invalidRequest) →
      AnswersAlike P W ratio node io body := fun body hbody hinvalid =>
    ⟨⟨_, _, hinvalid⟩, fun items hitems => absurd hitems (hbody items)⟩
  cases body with
  | obj fields =>
    constructor
    · intro h
      obtain ⟨node', response, hanswer⟩ := h.answered
      have hclean : CutsClean (loggedParams fields) := by
        by_contra hcut
        rw [innerHandleRpc_obj_of_not hcut] at hanswer
        cases hanswer
      rw [innerHandleRpc_obj hclean] at hanswer
      exact ⟨hclean, (handleItem_ne_panicked_iff ratio (io 0)).mp (by rw [hanswer]; nofun)⟩
    · rintro ⟨hclean, hserved⟩
      obtain ⟨⟨node', response⟩, hitem⟩ :=
        Outcome.exists_returned ((handleItem_ne_panicked_iff ratio (io 0)).mpr hserved)
      exact ⟨⟨node', response, by rw [innerHandleRpc_obj hclean, hitem]⟩, nofun⟩
  | arr items =>
    refine ⟨fun h => ?_, answersAlike_arr⟩
    cases items with
    | nil => trivial
    | cons item rest =>
      have hne := List.cons_ne_nil item rest
      obtain ⟨node', responses, hbody, -, heach, -⟩ := h.batch _ rfl hne
      rw [innerHandleRpc_arr hne] at hbody
      obtain ⟨⟨last, responses'⟩, hbatch, hout⟩ := Outcome.bind_eq_returned_iff.mp hbody
      cases hout
      exact uniform_of_submitEach hbatch heach
  | null => exact iff_of_true (hscalar _ nofun rfl) trivial
  | bool b => exact iff_of_true (hscalar _ nofun rfl) trivial
  | num n => exact iff_of_true (hscalar _ nofun rfl) trivial
  | real text => exact iff_of_true (hscalar _ nofun rfl) trivial
  | str s => exact iff_of_true (hscalar _ nofun rfl) trivial

/-- A request for the chain id with a parameter that is not used: its 160th byte is the first of
the two bytes of the last letter. -/
def accented : JsonFields :=
  [("jsonrpc", .text "2.0"), ("id", .num 1), ("method", .text "eth_chainId"),
    ("params", .arr [.str (List.replicate 157 'a' ++ ['é'])])]

/-- It is answered in a batch, and alone it panics. -/
theorem accented_request_panics :
    innerHandleRpc Payment.platform DevWallet.wallet Payment.noRatio Payment.node
        (fun _ => ⟨5, .healthy⟩) (.obj accented) = .panicked ∧
      innerHandleRpc Payment.platform DevWallet.wallet Payment.noRatio Payment.node
        (fun _ => ⟨5, .healthy⟩) (.arr [.obj accented]) =
          .returned (Payment.node, .arr [ok (.num 1) (.quantity (19088 : U64))]) ∧
      ¬AnswersAlike Payment.platform DevWallet.wallet Payment.noRatio Payment.node
        (fun _ => ⟨5, .healthy⟩) (.obj accented) ∧
      ¬AnswersAlike Payment.platform DevWallet.wallet Payment.noRatio Payment.node
        (fun _ => ⟨5, .healthy⟩) (.arr [.obj accented]) := by
  have hcut : ¬CutsClean (loggedParams accented) :=
    (summarize_eq_panicked_iff (loggedParams accented)).mp (by decide +kernel)
  have halone : ∀ io, innerHandleRpc Payment.platform DevWallet.wallet Payment.noRatio Payment.node
      io (.obj accented) = .panicked := innerHandleRpc_obj_of_not hcut Payment.node
  refine ⟨halone _, rfl, fun h => ?_, fun h => ?_⟩
  · obtain ⟨node', response, hanswer⟩ := h.answered
    rw [halone] at hanswer
    cases hanswer
  · obtain ⟨node', responses, -, -, heach, -⟩ := h.batch _ rfl nofun
    obtain ⟨mid, response, rest, hitem, -⟩ := submitEach_cons heach
    rw [halone] at hitem
    cases hitem

end KanariEvm.Server
