import CaviErp.Forge.Proofs.AddressProofs
import CaviErp.Forge.Transport

/-!
# What the NetSuite client sends and raises

`apply` and `fetch` are one procedure: refuse by oneself, have the request signed, send it, read the
answer. Nothing unsigned is sent, whatever the services answer. An answer of Vault with status 200 is read
without a guard, and what it raises then is no `ErpWriteError`.
-/

namespace CaviErp

open Py

/-! ## Settings -/

theorem NetSuiteClient.requireConfigured_ok_iff {c : NetSuiteClient} :
    c.requireConfigured = .ok () ↔ c.Configured := by
  unfold requireConfigured Configured
  by_cases hvault : c.vaultUrl = ""
  · simp [hvault]
  · by_cases hsecret : c.vaultSecret = ""
    · simp [hsecret]
    · by_cases hbase : c.base = ""
      · simp [hbase]
      · simp [hvault, hsecret, hbase]

namespace Transport

variable {t : Transport} {c : NetSuiteClient} {op : WriteOperation} {α : Type}

/-! ## One request -/

theorem request_refused {r : Request} {e : PyError} (h : t.refuses r = some e) (log : List Request) :
    t.request r log = (.error e, log) := by
  unfold request
  rw [h]

theorem request_sent {r : Request} (h : t.refuses r = none) (log : List Request) :
    t.request r log = (.ok (t.send log r), log ++ [r]) := by
  unfold request
  rw [h]

theorem sign_refused {method url : String} {e : PyError}
    (h : t.refuses (c.signRequest op method url) = some e) (log : List Request) :
    t.sign c op method url log = (.error e, log) := by
  unfold sign
  rw [Action.bind_apply, request_refused h]

theorem sign_sent {method url : String} (h : t.refuses (c.signRequest op method url) = none)
    (log : List Request) :
    t.sign c op method url log =
      (authorizationOf op method url (t.send log (c.signRequest op method url)),
        log ++ [c.signRequest op method url]) := by
  unfold sign
  rw [Action.bind_apply, request_sent h]
  rfl

/-! ## The call -/

/-- A signed request and what is made of the answer, once the client does not refuse by itself. -/
def call (t : Transport) (c : NetSuiteClient) (op : WriteOperation) (method : String)
    (refusal : Except String Unit) (signed : Json → Request)
    (finish : Except String Response → Except String α) : Action (List Request) PyError α := do
  orErpWriteError refusal
  let authorization ← t.sign c op method (c.recordUrl op)
  let answer ← t.request (signed authorization)
  orErpWriteError (finish answer)

/-- The checks of `apply`. -/
def applyRefusal (c : NetSuiteClient) (op : WriteOperation) : Except String Unit := do
  c.requireConfigured
  NetSuiteClient.requireCoherent op

theorem apply_eq_call : t.apply c op =
    t.call c op "PUT" (applyRefusal c op) (c.upsertRequest op) (NetSuiteClient.confirmationOf op) := by
  funext log
  unfold apply call applyRefusal orErpWriteError
  cases c.requireConfigured with
  | error text => rfl
  | ok u => rfl

theorem fetch_eq_call : t.fetch c op =
    t.call c op "GET" c.requireConfigured (c.readRequest op) (NetSuiteClient.currentOf op) := rfl

theorem applyRefusal_ok_iff :
    applyRefusal c op = .ok () ↔ c.Configured ∧ NetSuiteClient.Coherent op := by
  rw [← NetSuiteClient.requireConfigured_ok_iff, ← NetSuiteClient.requireCoherent_ok_iff]
  unfold applyRefusal
  cases c.requireConfigured with
  | error text => simp [bind, Except.bind]
  | ok u => simp [bind, Except.bind]

theorem asksToSign (c : NetSuiteClient) (op : WriteOperation) (method url : String) :
    (c.signRequest op method url).AsksToSign c op method url := ⟨rfl, rfl, rfl⟩

/-! ## Vault's answer -/

section Answer

variable {method url : String} {response : Response} {body : Obj}

theorem authorizationOf_of_refused (hstatus : response.statusCode ≠ 200) :
    ∃ text, authorizationOf op method url (.ok response) = .error (.erpWriteError text) :=
  ⟨_, if_pos hstatus⟩

theorem authorizationOf_of_granted (hstatus : response.statusCode = 200)
    (hjson : response.json = some (.obj body))
    (hheader : (Obj.get body "authorization_header").truthy = true) :
    authorizationOf op method url (.ok response) = .ok (Obj.get body "authorization_header") := by
  unfold authorizationOf
  simp only [if_neg (not_not.mpr hstatus), hjson, if_pos hheader]

theorem authorizationOf_of_blank (hstatus : response.statusCode = 200)
    (hjson : response.json = some (.obj body))
    (hheader : ¬ (Obj.get body "authorization_header").truthy = true) :
    authorizationOf op method url (.ok response) =
      .error (.erpWriteError "vault /sign returned no authorization_header") := by
  unfold authorizationOf
  simp only [if_neg (not_not.mpr hstatus), hjson, if_neg hheader]

/-- A body that is no JSON object is read all the same. -/
theorem authorizationOf_of_no_object (hstatus : response.statusCode = 200)
    (hjson : ∀ body, response.json ≠ some (.obj body)) :
    ∃ e, authorizationOf op method url (.ok response) = .error e ∧ ∀ text, e ≠ .erpWriteError text := by
  unfold authorizationOf
  simp only [if_neg (not_not.mpr hstatus)]
  cases hread : response.json with
  | none => exact ⟨.jsonDecodeError, rfl, fun _ => nofun⟩
  | some j =>
    cases j with
    | obj body => exact absurd hread (hjson body)
    | null => exact ⟨_, rfl, fun _ => nofun⟩
    | bool b => exact ⟨_, rfl, fun _ => nofun⟩
    | int n => exact ⟨_, rfl, fun _ => nofun⟩
    | float x => exact ⟨_, rfl, fun _ => nofun⟩
    | str s => exact ⟨_, rfl, fun _ => nofun⟩
    | arr xs => exact ⟨_, rfl, fun _ => nofun⟩

theorem grants_of_authorizationOf {answer : Except String Response} {authorization : Json}
    (h : authorizationOf op method url answer = .ok authorization) :
    ∃ response, answer = .ok response ∧ response.Grants authorization := by
  cases answer with
  | error text => cases h
  | ok response =>
    by_cases hstatus : response.statusCode = 200
    · by_cases hobject : ∃ body, response.json = some (.obj body)
      · obtain ⟨body, hjson⟩ := hobject
        by_cases hheader : (Obj.get body "authorization_header").truthy = true
        · rw [authorizationOf_of_granted hstatus hjson hheader] at h
          obtain rfl := Except.ok.inj h
          exact ⟨response, rfl, hstatus, hheader, body, hjson, rfl⟩
        · rw [authorizationOf_of_blank hstatus hjson hheader] at h
          cases h
      · obtain ⟨e, herror, -⟩ := authorizationOf_of_no_object hstatus (not_exists.mp hobject)
        rw [herror] at h
        cases h
    · obtain ⟨text, herror⟩ := authorizationOf_of_refused hstatus
      rw [herror] at h
      cases h

/-- Vault's answer raises something else exactly where its status is 200 and its body no JSON object. -/
theorem authorizationOf_failsClosed_iff {answer : Except String Response} :
    FailsClosed (authorizationOf op method url answer) ↔
      ∀ response, answer = .ok response → response.statusCode = 200 →
        ∃ body, response.json = some (.obj body) := by
  constructor
  · rintro hclosed response rfl hstatus
    by_contra hobject
    obtain ⟨e, herror, hne⟩ := authorizationOf_of_no_object hstatus (not_exists.mp hobject)
    obtain ⟨text, he⟩ := hclosed e herror
    exact hne text he
  · intro hobject e he
    cases answer with
    | error text => exact ⟨_, (Except.error.inj he).symm⟩
    | ok response =>
      by_cases hstatus : response.statusCode = 200
      · obtain ⟨body, hjson⟩ := hobject response rfl hstatus
        by_cases hheader : (Obj.get body "authorization_header").truthy = true
        · rw [authorizationOf_of_granted hstatus hjson hheader] at he
          cases he
        · rw [authorizationOf_of_blank hstatus hjson hheader] at he
          exact ⟨_, (Except.error.inj he).symm⟩
      · obtain ⟨text, herror⟩ := authorizationOf_of_refused hstatus
        rw [herror] at he
        exact ⟨text, (Except.error.inj he).symm⟩

end Answer

/-! ## Courses of a call -/

/-- How a call can go: refused, not signed, or signed and sent. -/
inductive Course (t : Transport) (c : NetSuiteClient) (op : WriteOperation) (method : String)
    (refusal : Except String Unit) (signed : Json → Request)
    (finish : Except String Response → Except String α) (log : List Request) :
    Except PyError α × List Request → Prop where
  | refused (text : String) (h : refusal = .error text) :
    Course t c op method refusal signed finish log (.error (.erpWriteError text), log)
  | unasked (e : PyError) (h : refusal = .ok ())
      (hsign : t.refuses (c.signRequest op method (c.recordUrl op)) = some e) :
    Course t c op method refusal signed finish log (.error e, log)
  | unsigned (e : PyError) (h : refusal = .ok ())
      (hsign : t.refuses (c.signRequest op method (c.recordUrl op)) = none)
      (hanswer : authorizationOf op method (c.recordUrl op)
        (t.send log (c.signRequest op method (c.recordUrl op))) = .error e) :
    Course t c op method refusal signed finish log
      (.error e, log ++ [c.signRequest op method (c.recordUrl op)])
  | unsent (e : PyError) (authorization : Json) (h : refusal = .ok ())
      (hsign : t.refuses (c.signRequest op method (c.recordUrl op)) = none)
      (hanswer : authorizationOf op method (c.recordUrl op)
        (t.send log (c.signRequest op method (c.recordUrl op))) = .ok authorization)
      (hsigned : t.refuses (signed authorization) = some e) :
    Course t c op method refusal signed finish log
      (.error e, log ++ [c.signRequest op method (c.recordUrl op)])
  | sent (authorization : Json) (h : refusal = .ok ())
      (hsign : t.refuses (c.signRequest op method (c.recordUrl op)) = none)
      (hanswer : authorizationOf op method (c.recordUrl op)
        (t.send log (c.signRequest op method (c.recordUrl op))) = .ok authorization)
      (hsigned : t.refuses (signed authorization) = none) :
    Course t c op method refusal signed finish log
      ((finish (t.send (log ++ [c.signRequest op method (c.recordUrl op)]) (signed authorization))).mapError
          .erpWriteError,
        log ++ [c.signRequest op method (c.recordUrl op), signed authorization])

theorem call_course (t : Transport) (c : NetSuiteClient) (op : WriteOperation) (method : String)
    (refusal : Except String Unit) (signed : Json → Request)
    (finish : Except String Response → Except String α) (log : List Request) :
    Course t c op method refusal signed finish log
      (t.call c op method refusal signed finish log) := by
  unfold call
  rw [Action.bind_apply]
  cases hrefusal : refusal with
  | error text => exact .refused text rfl
  | ok u =>
    show Course t c op method (.ok ()) signed finish log ((t.sign c op method (c.recordUrl op) >>= _) log)
    rw [Action.bind_apply]
    cases hsign : t.refuses (c.signRequest op method (c.recordUrl op)) with
    | some e =>
      rw [sign_refused hsign]
      exact .unasked e rfl hsign
    | none =>
      rw [sign_sent hsign]
      cases hanswer : authorizationOf op method (c.recordUrl op)
          (t.send log (c.signRequest op method (c.recordUrl op))) with
      | error e => exact .unsigned e rfl hsign hanswer
      | ok authorization =>
        show Course t c op method (.ok ()) signed finish log ((t.request (signed authorization) >>= _) _)
        rw [Action.bind_apply]
        cases hsigned : t.refuses (signed authorization) with
        | some e =>
          rw [request_refused hsigned]
          exact .unsent e authorization rfl hsign hanswer hsigned
        | none =>
          rw [request_sent hsigned, List.append_assoc]
          exact .sent authorization rfl hsign hanswer hsigned

/-! ## Nothing unsigned -/

/-- An error that is renamed stays an error. -/
theorem mapError_eq_ok {ε ε' : Type} {x : Except ε α} {f : ε → ε'} {a : α} (h : x.mapError f = .ok a) :
    x = .ok a := by
  cases x with
  | error e => cases h
  | ok b => exact congrArg Except.ok (Except.ok.inj h)

/-- What a call sends, and that what it returns was made of the answer to its second request. -/
theorem call_sends (t : Transport) (c : NetSuiteClient) (op : WriteOperation) (method : String)
    (refusal : Except String Unit) (signed : Json → Request)
    (finish : Except String Response → Except String α) (allowed : Prop)
    (hconfigured : refusal = .ok () → c.Configured) (hallowed : refusal = .ok () → allowed)
    (hmethod : ∀ authorization, (signed authorization).method = method)
    (hurl : ∀ authorization, (signed authorization).url = c.recordUrl op)
    (hheader : ∀ authorization,
      (signed authorization).headers.lookup "Authorization" = some authorization)
    (hfinish : ∀ text a, finish (.error text) ≠ .ok a) (log : List Request) :
    ∃ made, (t.call c op method refusal signed finish log).2 = log ++ made ∧
      Sends t c op method allowed log made ∧
      ∀ a, (t.call c op method refusal signed finish log).1 = .ok a →
        ∃ response, Answered t log made method response ∧ finish (.ok response) = .ok a := by
  have hcourse := call_course t c op method refusal signed finish log
  have hasks := asksToSign c op method (c.recordUrl op)
  generalize t.call c op method refusal signed finish log = r at hcourse
  cases hcourse with
  | refused text h => exact ⟨[], (List.append_nil log).symm, .inl rfl, fun a ha => nomatch ha⟩
  | unasked e h hsign => exact ⟨[], (List.append_nil log).symm, .inl rfl, fun a ha => nomatch ha⟩
  | unsigned e h hsign hanswer =>
    exact ⟨_, rfl, .inr ⟨_, hasks, hconfigured h, .inl rfl⟩, fun a ha => nomatch ha⟩
  | unsent e authorization h hsign hanswer hsigned =>
    exact ⟨_, rfl, .inr ⟨_, hasks, hconfigured h, .inl rfl⟩, fun a ha => nomatch ha⟩
  | sent authorization h hsign hanswer hsigned =>
    obtain ⟨response, hresponse, hgrants⟩ := grants_of_authorizationOf hanswer
    have hsends : Sends t c op method allowed log
        [c.signRequest op method (c.recordUrl op), signed authorization] :=
      .inr ⟨_, hasks, hconfigured h, .inr ⟨_, response, authorization, rfl, hallowed h, hmethod _,
        hurl _, hresponse, hgrants, hheader _⟩⟩
    refine ⟨_, rfl, hsends, fun a ha => ?_⟩
    cases hlast : t.send (log ++ [c.signRequest op method (c.recordUrl op)]) (signed authorization) with
    | error text =>
      -- the transport raised, and nothing is returned
      have hraised : (finish (.error text)).mapError PyError.erpWriteError = .ok a := hlast ▸ ha
      have hmade : finish (.error text) = .ok a := mapError_eq_ok hraised
      exact absurd hmade (hfinish text a)
    | ok response' =>
      have hmade : (finish (.ok response')).mapError PyError.erpWriteError = .ok a := hlast ▸ ha
      have hanswered : Answered t log
          [c.signRequest op method (c.recordUrl op), signed authorization] method response' :=
        ⟨_, _, rfl, hmethod _, hlast⟩
      exact ⟨response', hanswered, mapError_eq_ok hmade⟩

theorem success_of_confirmationOf {response : Response} {confirmation : Obj}
    (h : NetSuiteClient.confirmationOf op (.ok response) = .ok confirmation) :
    response.success = true := by
  unfold NetSuiteClient.confirmationOf at h
  by_cases hsuccess : response.success = true
  · exact hsuccess
  · simp only [if_neg hsuccess] at h
    cases h

theorem status_of_currentOf {response : Response}
    (h : NetSuiteClient.currentOf op (.ok response) = .ok none) : response.statusCode = 404 := by
  unfold NetSuiteClient.currentOf at h
  by_cases hstatus : response.statusCode = 404
  · exact hstatus
  · simp only [if_neg hstatus] at h
    split at h
    · cases h
    · cases hjson : response.jsonOf with
      | none =>
        rw [hjson] at h
        cases h
      | some body =>
        rw [hjson] at h
        cases h

theorem record_of_currentOf {response : Response} {record : Obj}
    (h : NetSuiteClient.currentOf op (.ok response) = .ok (some record)) :
    response.success = true ∧ response.json = some (.obj record) := by
  unfold NetSuiteClient.currentOf at h
  by_cases hstatus : response.statusCode = 404
  · simp only [if_pos hstatus] at h
    cases h
  · simp only [if_neg hstatus] at h
    by_cases hsuccess : response.success = true
    · rw [if_neg (not_not.mpr hsuccess)] at h
      cases hjson : response.jsonOf with
      | none =>
        rw [hjson] at h
        cases h
      | some body =>
        rw [hjson] at h
        obtain rfl : body = record := Option.some.inj (Except.ok.inj h)
        refine ⟨hsuccess, ?_⟩
        unfold Response.jsonOf at hjson
        split at hjson
        · rename_i o heq
          rw [heq, Option.some.inj hjson]
        · cases hjson
    · rw [if_pos hsuccess] at h
      cases h

/-- **Nothing unsigned and nothing mis-signed is sent.** Whatever the services answer, `apply` makes no
request, or asks Vault to sign the PUT, or also makes it, on the record's url and with the header that
Vault gave, the client being configured and the write coherent; a confirmation is of a PUT that was
answered with success. `fetch` does so with a GET, of any write; it finds no record where the GET was
answered 404, and a record where it was answered with success and that JSON object. -/
theorem call_trace (t : Transport) (c : NetSuiteClient) (op : WriteOperation) (log : List Request) :
    (∃ made, (t.apply c op log).2 = log ++ made ∧
      Sends t c op "PUT" (NetSuiteClient.Coherent op) log made ∧
      ∀ confirmation, (t.apply c op log).1 = .ok confirmation →
        ∃ response, Answered t log made "PUT" response ∧ response.success = true) ∧
    ∃ made, (t.fetch c op log).2 = log ++ made ∧ Sends t c op "GET" True log made ∧
      ((t.fetch c op log).1 = .ok none →
        ∃ response, Answered t log made "GET" response ∧ response.statusCode = 404) ∧
      ∀ record, (t.fetch c op log).1 = .ok (some record) →
        ∃ response, Answered t log made "GET" response ∧ response.success = true ∧
          response.json = some (.obj record) := by
  constructor
  · rw [apply_eq_call]
    obtain ⟨made, hlog, hsends, hok⟩ := call_sends t c op "PUT" (applyRefusal c op)
      (c.upsertRequest op) (NetSuiteClient.confirmationOf op) (NetSuiteClient.Coherent op)
      (fun h => (applyRefusal_ok_iff.mp h).1) (fun h => (applyRefusal_ok_iff.mp h).2)
      (fun _ => rfl) (fun _ => rfl) (fun _ => rfl) (fun _ _ h => nomatch h) log
    refine ⟨made, hlog, hsends, fun confirmation h => ?_⟩
    obtain ⟨response, hanswered, hfinish⟩ := hok confirmation h
    exact ⟨response, hanswered, success_of_confirmationOf hfinish⟩
  · rw [fetch_eq_call]
    obtain ⟨made, hlog, hsends, hok⟩ := call_sends t c op "GET" c.requireConfigured (c.readRequest op)
      (NetSuiteClient.currentOf op) True
      (fun h => NetSuiteClient.requireConfigured_ok_iff.mp h) (fun _ => trivial)
      (fun _ => rfl) (fun _ => rfl) (fun _ => rfl) (fun _ _ h => nomatch h) log
    refine ⟨made, hlog, hsends, fun h => ?_, fun record h => ?_⟩
    · obtain ⟨response, hanswered, hfinish⟩ := hok none h
      exact ⟨response, hanswered, status_of_currentOf hfinish⟩
    · obtain ⟨response, hanswered, hfinish⟩ := hok (some record) h
      exact ⟨response, hanswered, record_of_currentOf hfinish⟩

/-! ## Which exceptions escape -/

theorem mapError_failsClosed (r : Except String α) : FailsClosed (r.mapError PyError.erpWriteError) := by
  intro e h
  cases r with
  | error text => exact ⟨text, (Except.error.inj h).symm⟩
  | ok a => cases h

theorem call_failsClosed_iff {method : String} {refusal : Except String Unit} {signed : Json → Request}
    {finish : Except String Response → Except String α} {log : List Request} :
    FailsClosed (t.call c op method refusal signed finish log).1 ↔
      (refusal = .ok () → Readable t c op method signed log) := by
  have hcourse := call_course t c op method refusal signed finish log
  generalize t.call c op method refusal signed finish log = r at hcourse
  cases hcourse with
  | refused text h =>
    rw [h]
    exact ⟨fun _ hok => (nomatch hok), fun _ e he => ⟨text, (Except.error.inj he).symm⟩⟩
  | unasked e h hsign =>
    constructor
    · intro hclosed
      obtain ⟨text, he⟩ := hclosed e rfl
      exact absurd he (t.refuses_ne _ e hsign text)
    · intro hreadable
      rw [(hreadable h).1] at hsign
      cases hsign
  | unsigned e h hsign hanswer =>
    have hclosed_iff : FailsClosed (Except.error e : Except PyError α) ↔
        FailsClosed (authorizationOf op method (c.recordUrl op)
          (t.send log (c.signRequest op method (c.recordUrl op)))) := by
      rw [hanswer]
      exact ⟨fun hclosed e' he => hclosed e' (congrArg Except.error (Except.error.inj he)),
        fun hclosed e' he => hclosed e' (congrArg Except.error (Except.error.inj he))⟩
    show FailsClosed (Except.error e : Except PyError α) ↔ _
    rw [hclosed_iff, authorizationOf_failsClosed_iff]
    constructor
    · intro hobject _
      refine ⟨hsign, fun response hresponse hstatus => ?_⟩
      obtain ⟨body, hjson⟩ := hobject response hresponse hstatus
      refine ⟨body, hjson, fun hheader => ?_⟩
      -- a header would have been returned
      rw [hresponse, authorizationOf_of_granted hstatus hjson hheader] at hanswer
      cases hanswer
    · intro hreadable response hresponse hstatus
      obtain ⟨body, hjson, -⟩ := (hreadable h).2 response hresponse hstatus
      exact ⟨body, hjson⟩
  | unsent e authorization h hsign hanswer hsigned =>
    constructor
    · intro hclosed
      obtain ⟨text, he⟩ := hclosed e rfl
      exact absurd he (t.refuses_ne _ e hsigned text)
    · intro hreadable
      obtain ⟨response, hresponse, hstatus, htruthy, body, hjson, rfl⟩ := grants_of_authorizationOf hanswer
      obtain ⟨body', hjson', htakes⟩ := (hreadable h).2 response hresponse hstatus
      obtain rfl : body = body' := Json.obj.inj (Option.some.inj (hjson.symm.trans hjson'))
      rw [htakes htruthy] at hsigned
      cases hsigned
  | sent authorization h hsign hanswer hsigned =>
    refine ⟨fun _ _ => ⟨hsign, fun response hresponse hstatus => ?_⟩, fun _ => mapError_failsClosed _⟩
    obtain ⟨response', hresponse', -, -, body, hjson, rfl⟩ := grants_of_authorizationOf hanswer
    obtain rfl := Except.ok.inj (hresponse.symm.trans hresponse')
    exact ⟨body, hjson, fun _ => hsigned⟩

/-- **Only an `ErpWriteError` is raised, where Vault's answer can be used.** A call of `apply` or `fetch`
that does not refuse by itself raises nothing else if and only if the transport can ask Vault, and an
answer of Vault with status 200 is a JSON object whose header, if it has one, the transport can send. -/
theorem failsClosed_iff (t : Transport) (c : NetSuiteClient) (op : WriteOperation) (log : List Request) :
    (FailsClosed (t.apply c op log).1 ↔
      (c.Configured → NetSuiteClient.Coherent op → Readable t c op "PUT" (c.upsertRequest op) log)) ∧
    (FailsClosed (t.fetch c op log).1 ↔
      (c.Configured → Readable t c op "GET" (c.readRequest op) log)) := by
  rw [apply_eq_call, fetch_eq_call, call_failsClosed_iff, call_failsClosed_iff, applyRefusal_ok_iff,
    NetSuiteClient.requireConfigured_ok_iff]
  exact ⟨and_imp, Iff.rfl⟩

theorem refuses_nothing (_ : Request) (e : PyError) (h : (none : Option PyError) = some e) (text : String) :
    e ≠ .erpWriteError text := by
  cases h

/-- A transport on which a proxy in front of Vault answers, with a page. -/
def proxied : Transport where
  refuses _ := none
  refuses_ne := refuses_nothing
  send _ _ := .ok { statusCode := 200, text := "<html>Sign in</html>" }

/-- The page is no `ErpWriteError`. -/
theorem proxied_escapes :
    let r := proxied.apply NetSuiteClient.someClient (NetSuiteClient.journalUpdate "cavi-w-1") []
    r.1 = .error .jsonDecodeError ∧ ¬ FailsClosed r.1 := by
  intro r
  have hraised : r.1 = .error .jsonDecodeError := by decide +kernel
  refine ⟨hraised, fun hclosed => ?_⟩
  obtain ⟨text, htext⟩ := hclosed _ hraised
  cases htext

/-! ## Vault's service -/

theorem sign_ofNet (net : Net) (method url : String) (log : List Request) :
    authorizationOf op method url ((ofNet net).send log (c.signRequest op method url)) =
      (c.sign net op method url).mapError .erpWriteError := by
  have hsend : (ofNet net).send log (c.signRequest op method url) =
      (net.vault (c.signRequest op method url)).map VaultReply.response := rfl
  rw [hsend]
  cases hvault : net.vault (c.signRequest op method url) with
  | error text =>
    have hsign : c.sign net op method url = .error ("vault /sign unreachable: " ++ text) := by
      unfold NetSuiteClient.sign
      unfold NetSuiteClient.signRequest at hvault
      rw [hvault]
    rw [hsign]
    rfl
  | ok reply =>
    unfold NetSuiteClient.sign
    unfold NetSuiteClient.signRequest at hvault
    rw [hvault]
    by_cases hstatus : reply.statusCode ≠ 200
    · have hleft : authorizationOf op method url (.ok reply.response) = .error _ := if_pos hstatus
      refine hleft.trans ?_
      show _ = Except.mapError _ (if reply.statusCode ≠ 200 then _ else _)
      rw [if_pos hstatus]
      rfl
    · have hstatus' : reply.response.statusCode = 200 := not_not.mp hstatus
      show authorizationOf op method url (.ok reply.response) =
        Except.mapError _ (if reply.statusCode ≠ 200 then _ else
          if (Obj.get reply.body "authorization_header").truthy = true then _ else _)
      rw [if_neg hstatus]
      by_cases hheader : (Obj.get reply.body "authorization_header").truthy = true
      · rw [authorizationOf_of_granted hstatus' rfl hheader, if_pos hheader]
        rfl
      · rw [authorizationOf_of_blank hstatus' rfl hheader, if_neg hheader]
        rfl

theorem call_ofNet (net : Net) {method : String} (refusal : Except String Unit)
    {signed : Json → Request} (finish : Except String Response → Except String α)
    (hmethod : ∀ authorization, (signed authorization).method ≠ "POST") (log : List Request) :
    ((ofNet net).call c op method refusal signed finish log).1 =
      (refusal >>= fun _ => c.sign net op method (c.recordUrl op) >>= fun authorization =>
        finish (net.netsuite (signed authorization))).mapError .erpWriteError := by
  have hcourse := call_course (ofNet net) c op method refusal signed finish log
  generalize (ofNet net).call c op method refusal signed finish log = r at hcourse
  cases hcourse with
  | refused text h =>
    rw [h]
    rfl
  | unasked e h hsign => cases hsign
  | unsigned e h hsign hanswer =>
    rw [sign_ofNet] at hanswer
    rw [h]
    cases hs : c.sign net op method (c.recordUrl op) with
    | error text =>
      rw [hs] at hanswer
      exact congrArg Except.error (Except.error.inj hanswer).symm
    | ok authorization =>
      rw [hs] at hanswer
      cases hanswer
  | unsent e authorization h hsign hanswer hsigned => cases hsigned
  | sent authorization h hsign hanswer hsigned =>
    rw [sign_ofNet] at hanswer
    rw [h]
    cases hs : c.sign net op method (c.recordUrl op) with
    | error text =>
      rw [hs] at hanswer
      cases hanswer
    | ok authorization' =>
      rw [hs] at hanswer
      obtain rfl : authorization' = authorization := Except.ok.inj hanswer
      have hsend : ∀ log', (ofNet net).send log' (signed authorization') =
          net.netsuite (signed authorization') := fun _ => if_neg (hmethod _)
      rw [hsend]
      rfl

theorem apply_eq (c : NetSuiteClient) (net : Net) (op : WriteOperation) : c.apply net op =
    c.putRequest net op >>= fun request => NetSuiteClient.confirmationOf op (net.netsuite request) := by
  unfold NetSuiteClient.apply
  cases c.putRequest net op with
  | error text => rfl
  | ok request =>
    simp only [bind, Except.bind]
    cases net.netsuite request with
    | error text => rfl
    | ok response => rfl

/-- Over Vault's service, `apply` on the wire is `apply`. -/
theorem apply_ofNet (net : Net) (log : List Request) :
    ((ofNet net).apply c op log).1 = (c.apply net op).mapError .erpWriteError := by
  have hput : ∀ authorization, (c.upsertRequest op authorization).method ≠ "POST" := fun _ => by
    simp [NetSuiteClient.upsertRequest]
  rw [apply_eq_call, call_ofNet net _ _ hput log, apply_eq]
  unfold applyRefusal NetSuiteClient.putRequest
  cases c.requireConfigured with
  | error text => rfl
  | ok u =>
    cases NetSuiteClient.requireCoherent op with
    | error text => rfl
    | ok u =>
      cases c.sign net op "PUT" (c.recordUrl op) with
      | error text => rfl
      | ok authorization => rfl

/-- Over Vault's service, `fetch` on the wire is `fetch`. -/
theorem fetch_ofNet (net : Net) (log : List Request) :
    ((ofNet net).fetch c op log).1 = (c.fetch net op).mapError .erpWriteError := by
  have hget : ∀ authorization, (c.readRequest op authorization).method ≠ "POST" := fun _ => by
    simp [NetSuiteClient.readRequest]
  rw [fetch_eq_call, call_ofNet net _ _ hget log, NetSuiteClient.fetch_eq]
  unfold NetSuiteClient.getRequest
  cases c.requireConfigured with
  | error text => rfl
  | ok u =>
    cases c.sign net op "GET" (c.recordUrl op) with
    | error text => rfl
    | ok authorization => rfl

end Transport

end CaviErp
