import Inec.Store.Json

/-!
# The channel adapters

The Send of every adapter of the dispatch engine: those of internal/gotv/dispatch.go with their own HTTP client,
the two of dispatch_v2.go that go through `simpleHTTPClient.Post`, which returns the body whatever the status
is, and the calls of v2_constructors.go and innovations.go. A provider answers a request with a response or the
transport fails; what it answers to each request is any function.

`http.NewRequestWithContext` fails for an address that does not parse, and the client panics at a request that
was not made. All requests are POST. What `encoding/json` reads from a body, one field or path for each adapter,
and what the database knows of a contact are parameters. The latency is left out.
-/

namespace Inec.Adapters

structure OutboundMessage where
  campaignId : String
  contactId : String
  partyId : Int
  phone : String
  fullName : String
  template : String
  variant : String
  deriving DecidableEq, Repr

structure DeliveryResult where
  status : String
  messageId : String
  error : String
  cost : Int
  deriving DecidableEq, Repr

inductive Body
  | form (params : List (String × String))
  | json (payload : Json)
  | empty

structure HttpRequest where
  url : String
  headers : List (String × String)
  basicAuth : Option (String × String)
  body : Body

structure Response where
  statusCode : Nat
  /-- X-Message-ID -/
  messageId : String
  body : String
  /-- What one read of at most 512 bytes gets. -/
  firstRead : String
  /-- The error of reading all of the body. -/
  readError : Option String
  deriving DecidableEq, Repr

def Response.ok (r : Response) : Bool := 200 ≤ r.statusCode && r.statusCode < 300

abbrev Answer := Except String Response

structure Env where
  newRequestError : String → Option String
  answer : HttpRequest → Answer
  /-- `messageId` of each of the `SMSMessageData.Recipients`, if the body decodes. -/
  recipients : String → Option (List String)
  /-- `id` of each of the `messages`, if the body decodes. -/
  messages : String → Option (List String)
  /-- The string at a path, empty where the body does not decode so far. -/
  field : List String → String → String
  /-- `%v` of the `name` of a body, and of the `id` of the first of its `messages`. -/
  printedName : String → String
  printedId : String → String
  /-- The device token of a contact, unless the query fails. -/
  deviceToken : String → Option String
  /-- The last inbound message of a contact is less than a day old. -/
  withinWindow : String → Bool
  vapiPhoneId : String

/-- What Send returns, if it does not panic, and the requests that were sent with their answers. -/
structure Sent where
  result : Option DeliveryResult
  exchanges : List (HttpRequest × Answer)

def failed (error : String) : DeliveryResult := ⟨"failed", "", error, 0⟩

/-- An object, whose keys are in increasing order. -/
def object (fields : List (String × Json)) : Json := .ofMap fields

def texts (fields : List (String × String)) : Json := object (fields.map fun f => (f.1, .str f.2))

section Send

variable (env : Env)

/-- A request through an adapter's own client, and what is made of its answer. -/
def exchange (request : HttpRequest) (accepted : Response → DeliveryResult) (refused : Response → String) : Sent :=
  match env.newRequestError request.url with
  | some err => ⟨some (failed err), []⟩
  | none =>
      match env.answer request with
      | .error err => ⟨some (failed err), [(request, .error err)]⟩
      | .ok resp => ⟨some (if resp.ok then accepted resp else failed (refused resp)), [(request, .ok resp)]⟩

/-- `Post` of simpleHTTPClient: the body, whatever the status. -/
def post (request : HttpRequest) : Except String String × List (HttpRequest × Answer) :=
  match env.newRequestError request.url with
  | some err => (.error err, [])
  | none =>
      match env.answer request with
      | .error err => (.error err, [(request, .error err)])
      | .ok resp =>
          match resp.readError with
          | some err => (.error err, [(request, .ok resp)])
          | none => (.ok resp.body, [(request, .ok resp)])

def bearerJson (token : String) : List (String × String) :=
  [("Authorization", "Bearer " ++ token), ("Content-Type", "application/json")]

def formType : String × String := ("Content-Type", "application/x-www-form-urlencoded")

/-- `HTTP %d`, behind the name of a provider. -/
def httpError (provider : String) (resp : Response) : String := provider ++ "HTTP " ++ toString resp.statusCode

def httpErrorText (provider : String) (resp : Response) : String :=
  httpError provider resp ++ ": " ++ resp.firstRead

/-- The id of the first message, if there is one. -/
def firstId (ids : Option (List String)) : String := (ids.bind (·.head?)).getD ""

/-! ### dispatch.go -/

def sendLog (msg : OutboundMessage) : Sent := ⟨some ⟨"delivered", "log-" ++ msg.contactId, "", 0⟩, []⟩

structure SMSAdapter where
  provider : String
  apiUrl : String
  apiKey : String
  senderId : String
  username : String
  callbackUrl : String
  deriving DecidableEq, Repr

def SMSAdapter.accepted (a : SMSAdapter) (resp : Response) : DeliveryResult :=
  let msgId := if a.provider = "africastalking" ∧ resp.messageId = "" then firstId (env.recipients resp.body)
    else resp.messageId
  ⟨"pending", msgId, "", 400⟩

def SMSAdapter.send (a : SMSAdapter) (msg : OutboundMessage) : Sent :=
  if a.provider = "africastalking" then
    if a.username = "" then
      ⟨some (failed "AFRICASTALKING_USERNAME not configured (required for provider=africastalking)"), []⟩
    else
      let params := [("username", a.username), ("to", msg.phone), ("message", msg.template), ("from", a.senderId)]
      let params := if a.callbackUrl = "" then params else params ++ [("dlrUrl", a.callbackUrl)]
      exchange env ⟨a.apiUrl ++ "/messaging", [("apiKey", a.apiKey), formType], none, .form params⟩ (a.accepted env)
        (httpErrorText "")
  else if a.provider = "twilio" then
    let params := [("To", msg.phone), ("From", a.senderId), ("Body", msg.template)]
    let params := if a.callbackUrl = "" then params else params ++ [("StatusCallback", a.callbackUrl)]
    exchange env ⟨a.apiUrl, [formType], some (a.senderId, a.apiKey), .form params⟩ (a.accepted env)
      (httpErrorText "")
  else ⟨some (failed ("unknown SMS provider: " ++ a.provider)), []⟩

structure PushAdapter where
  serverKey : String
  projectId : String
  deriving DecidableEq, Repr

def fcmUrl (projectId : String) : String :=
  "https://fcm.googleapis.com/v1/projects/" ++ projectId ++ "/messages:send"

def reminder (msg : OutboundMessage) : Json := texts [("title", "Election Day Reminder"), ("body", msg.template)]

def PushAdapter.send (a : PushAdapter) (msg : OutboundMessage) : Sent :=
  let payload := object [("message", object [
    ("topic", .str ("gotv-party-" ++ toString msg.partyId)), ("notification", reminder msg),
    ("data", texts [("campaign_id", msg.campaignId), ("contact_id", msg.contactId), ("variant", msg.variant)])])]
  exchange env ⟨fcmUrl a.projectId, bearerJson a.serverKey, none, .json payload⟩
    (fun _ => ⟨"pending", "", "", 200⟩) (httpError "FCM ")

structure WhatsAppAdapter where
  apiUrl : String
  token : String
  phoneNumId : String
  templateName : String
  deriving DecidableEq, Repr

def messagesUrl (apiUrl phoneNumId : String) : String := apiUrl ++ "/" ++ phoneNumId ++ "/messages"

/-- The message with an approved template. -/
def templateMessage (templateName : String) (msg : OutboundMessage) : Json :=
  object [("messaging_product", .str "whatsapp"), ("to", .str msg.phone), ("type", .str "template"),
    ("template", object [("name", .str templateName), ("language", texts [("code", "en")]),
      ("components", .arr [object [("type", .str "body"), ("parameters", .arr [
        texts [("type", "text"), ("text", msg.fullName)], texts [("type", "text"), ("text", msg.template)]])]])])]

def WhatsAppAdapter.send (a : WhatsAppAdapter) (msg : OutboundMessage) : Sent :=
  exchange env ⟨messagesUrl a.apiUrl a.phoneNumId, bearerJson a.token, none,
    .json (templateMessage a.templateName msg)⟩
    (fun resp => ⟨"pending", firstId (env.messages resp.body), "", 500⟩) (httpErrorText "WhatsApp ")

structure USSDAdapter where
  apiUrl : String
  apiKey : String
  username : String
  deriving DecidableEq, Repr

def USSDAdapter.send (a : USSDAdapter) (msg : OutboundMessage) : Sent :=
  exchange env ⟨a.apiUrl ++ "/ussd/push", [("apiKey", a.apiKey), formType], none,
      .form [("username", a.username), ("phoneNumber", msg.phone), ("message", msg.template)]⟩
    (fun _ => ⟨"pending", "", "", 300⟩) (httpError "USSD ")

structure EmailAdapter where
  provider : String
  apiUrl : String
  apiKey : String
  fromAddr : String
  deriving DecidableEq, Repr

def EmailAdapter.send (a : EmailAdapter) (msg : OutboundMessage) : Sent :=
  if a.provider = "sendgrid" then
    let payload := object [
      ("personalizations", .arr [object [("to", .arr [texts [("email", msg.phone)]])]]),
      ("from", texts [("email", a.fromAddr)]), ("subject", .str ("Election Day Reminder — " ++ msg.fullName)),
      ("content", .arr [texts [("type", "text/plain"), ("value", msg.template)]])]
    exchange env ⟨a.apiUrl ++ "/v3/mail/send", bearerJson a.apiKey, none, .json payload⟩
      (fun _ => ⟨"pending", "", "", 100⟩) (httpError "SendGrid ")
  else if a.provider = "mailgun" then
    exchange env ⟨a.apiUrl ++ "/messages", [formType], some ("api", a.apiKey),
        .form [("from", a.fromAddr), ("to", msg.phone), ("subject", "Election Day Reminder"),
          ("text", msg.template)]⟩
      (fun _ => ⟨"pending", "", "", 100⟩) (httpError "Mailgun ")
  else ⟨some (failed ("unknown email provider: " ++ a.provider)), []⟩

structure TwitterAdapter where
  bearerToken : String
  deriving DecidableEq, Repr

def TwitterAdapter.send (a : TwitterAdapter) (msg : OutboundMessage) : Sent :=
  exchange env ⟨"https://api.twitter.com/2/tweets", bearerJson a.bearerToken, none,
    .json (texts [("text", msg.template)])⟩
    (fun resp => ⟨"delivered", env.field ["data", "id"] resp.body, "", 0⟩) (httpError "Twitter ")

structure FacebookAdapter where
  pageId : String
  accessToken : String
  deriving DecidableEq, Repr

def FacebookAdapter.send (a : FacebookAdapter) (msg : OutboundMessage) : Sent :=
  exchange env ⟨"https://graph.facebook.com/v18.0/" ++ a.pageId ++ "/feed", [formType], none,
      .form [("message", msg.template), ("access_token", a.accessToken)]⟩
    (fun resp => ⟨"delivered", env.field ["id"] resp.body, "", 0⟩) (httpError "Facebook ")

structure InstagramAdapter where
  accountId : String
  accessToken : String
  deriving DecidableEq, Repr

def InstagramAdapter.mediaRequest (a : InstagramAdapter) (msg : OutboundMessage) : HttpRequest :=
  ⟨"https://graph.facebook.com/v18.0/" ++ a.accountId ++ "/media", [formType], none,
    .form [("caption", msg.template), ("media_type", "TEXT"), ("access_token", a.accessToken)]⟩

/-- The container of the media is published by the id it was given. -/
def InstagramAdapter.publishRequest (a : InstagramAdapter) (id : String) : HttpRequest :=
  ⟨"https://graph.facebook.com/v18.0/" ++ a.accountId ++ "/media_publish?creation_id=" ++ id ++ "&access_token=" ++
    a.accessToken, [], none, .empty⟩

/-- The answer to the second request is closed and not looked at. -/
def InstagramAdapter.send (a : InstagramAdapter) (msg : OutboundMessage) : Sent :=
  let media := a.mediaRequest msg
  match env.newRequestError media.url with
  | some err => ⟨some (failed err), []⟩
  | none =>
      match env.answer media with
      | .error err => ⟨some (failed err), [(media, .error err)]⟩
      | .ok resp =>
          if resp.ok then
            let id := env.field ["id"] resp.body
            let publish := a.publishRequest id
            match env.newRequestError publish.url with
            | some _ => ⟨none, [(media, .ok resp)]⟩
            | none => ⟨some ⟨"delivered", id, "", 0⟩, [(media, .ok resp), (publish, env.answer publish)]⟩
          else ⟨some (failed (httpError "Instagram " resp)), [(media, .ok resp)]⟩

structure TikTokAdapter where
  accessToken : String
  deriving DecidableEq, Repr

def TikTokAdapter.send (a : TikTokAdapter) (msg : OutboundMessage) : Sent :=
  let payload := object [
    ("post_info", object [("title", .str msg.template), ("privacy_level", .str "PUBLIC_TO_EVERYONE"),
      ("disable_duet", .bool false), ("disable_comment", .bool false), ("disable_stitch", .bool false),
      ("brand_content_toggle", .bool false), ("brand_organic_toggle", .bool false)]),
    ("source_info", texts [("source", "PULL_FROM_URL"), ("video_url", "")])]
  exchange env ⟨"https://open.tiktokapis.com/v2/post/publish/content/init/", bearerJson a.accessToken,
    none, .json payload⟩
    (fun resp => ⟨"pending", env.field ["data", "publish_id"] resp.body, "", 0⟩) (httpErrorText "TikTok ")

structure WhatsAppInteractiveAdapter where
  apiUrl : String
  token : String
  phoneNumId : String
  deriving DecidableEq, Repr

def replyButton (id title : String) : Json :=
  object [("type", .str "reply"), ("reply", texts [("id", id), ("title", title)])]

def WhatsAppInteractiveAdapter.send (a : WhatsAppInteractiveAdapter) (msg : OutboundMessage) : Sent :=
  let payload := object [("messaging_product", .str "whatsapp"), ("recipient_type", .str "individual"),
    ("to", .str msg.phone), ("type", .str "interactive"),
    ("interactive", object [("type", .str "button"),
      ("header", texts [("type", "text"), ("text", "Election Day Reminder")]),
        ("body", texts [("text", msg.template)]),
      ("footer", texts [("text", "Reply STOP to opt out")]),
      ("action", object [("buttons", .arr [replyButton "btn_will_vote" "I'll Vote!",
        replyButton "btn_need_ride" "Need a Ride", replyButton "btn_find_pu" "Find My PU"])])])]
  exchange env ⟨messagesUrl a.apiUrl a.phoneNumId, bearerJson a.token, none, .json payload⟩
    (fun resp => ⟨"pending", firstId (env.messages resp.body), "", 500⟩) (httpErrorText "WhatsApp Interactive ")

/-! ### dispatch_v2.go -/

structure PushAdapterV2 where
  serverKey : String
  projectId : String
  deriving DecidableEq, Repr

def PushAdapterV2.tokenRequest (a : PushAdapterV2) (msg : OutboundMessage) (deviceToken : String) : HttpRequest :=
  let payload := object [("message", object [("token", .str deviceToken), ("notification", reminder msg),
    ("data", texts [("campaign_id", msg.campaignId), ("contact_id", msg.contactId), ("type", "gotv_reminder")]),
    ("android", texts [("priority", "high")])])]
  ⟨fcmUrl a.projectId, bearerJson a.serverKey, none, .json payload⟩

def PushAdapterV2.topicRequest (a : PushAdapterV2) (msg : OutboundMessage) : HttpRequest :=
  let payload := object [("message", object [
    ("topic", .str ("gotv_party_" ++ toString msg.partyId)), ("notification", reminder msg)])]
  ⟨fcmUrl a.projectId, bearerJson a.serverKey, none, .json payload⟩

def PushAdapterV2.sendToTopic (a : PushAdapterV2) (msg : OutboundMessage) : Sent :=
  match post env (a.topicRequest msg) with
  | (.error err, exchanges) => ⟨some (failed ("topic_fallback: " ++ err)), exchanges⟩
  | (.ok _, exchanges) => ⟨some ⟨"delivered", "", "", 0⟩, exchanges⟩

/-- The token of the contact, if it has one. -/
def token? (msg : OutboundMessage) : Option String := (env.deviceToken msg.contactId).filter (· ≠ "")

def PushAdapterV2.send (a : PushAdapterV2) (msg : OutboundMessage) : Sent :=
  match token? env msg with
  | none => a.sendToTopic env msg
  | some deviceToken =>
      match post env (a.tokenRequest msg deviceToken) with
      | (.error err, exchanges) => ⟨some (failed err), exchanges⟩
      | (.ok body, exchanges) => ⟨some ⟨"delivered", env.printedName body, "", 0⟩, exchanges⟩

structure WhatsAppAdapterV2 where
  apiUrl : String
  token : String
  phoneNumId : String
  templateName : String
  deriving DecidableEq, Repr

def WhatsAppAdapterV2.request (a : WhatsAppAdapterV2) (msg : OutboundMessage) : HttpRequest :=
  let payload :=
    if env.withinWindow msg.contactId then
      object [("messaging_product", .str "whatsapp"), ("to", .str msg.phone), ("type", .str "text"),
        ("text", texts [("body", msg.template)])]
    else templateMessage a.templateName msg
  ⟨messagesUrl a.apiUrl a.phoneNumId, bearerJson a.token, none, .json payload⟩

def WhatsAppAdapterV2.send (a : WhatsAppAdapterV2) (msg : OutboundMessage) : Sent :=
  match post env (a.request env msg) with
  | (.error err, exchanges) => ⟨some (failed err), exchanges⟩
  | (.ok body, exchanges) =>
      ⟨some ⟨"delivered", env.printedId body, "", if env.withinWindow msg.contactId then 0 else 50⟩, exchanges⟩

/-! ### The calls -/

structure VoiceAIAdapter where
  provider : String
  apiUrl : String
  apiKey : String
  agentId : String
  deriving DecidableEq, Repr

def VoiceAIAdapter.request (a : VoiceAIAdapter) (msg : OutboundMessage) : HttpRequest :=
  let payload :=
    if a.provider = "retell" then
      object [("agent_id", .str a.agentId), ("customer_number", .str msg.phone),
        ("retell_llm_dynamic_variables", texts [("campaign_id", msg.campaignId), ("contact_id", msg.contactId)])]
    else if a.provider = "vapi" then
      object [("assistantId", .str a.agentId), ("phoneNumberId", .str env.vapiPhoneId),
        ("customer", texts [("number", msg.phone)])]
    else if a.provider = "bland" then
      object [("phone_number", .str msg.phone),
        ("task", .str "Remind the voter about the upcoming election and encourage them to vote."),
          ("voice_id", .int 1),
        ("reduce_latency", .bool true)]
    else .null
  ⟨a.apiUrl ++ (if a.provider = "retell" then "/create-phone-call" else "/calls"), bearerJson a.apiKey, none,
    .json payload⟩

/-- PlaceCall cuts the contact id at eight bytes, and does not look at the status. -/
def VoiceAIAdapter.send (a : VoiceAIAdapter) (msg : OutboundMessage) : Sent :=
  if msg.contactId.utf8ByteSize < 8 then ⟨none, []⟩
  else
    let request := a.request env msg
    match env.newRequestError request.url with
    | some err => ⟨some (failed err), []⟩
    | none =>
        match env.answer request with
        | .error err => ⟨some (failed err), [(request, .error err)]⟩
        | .ok resp => ⟨some ⟨"initiated", "", "", 0⟩, [(request, .ok resp)]⟩

end Send

/-! ### The engine's adapters -/

inductive Adapter
  | log
  | sms (a : SMSAdapter)
  | push (a : PushAdapter)
  | whatsApp (a : WhatsAppAdapter)
  | ussd (a : USSDAdapter)
  | email (a : EmailAdapter)
  | twitter (a : TwitterAdapter)
  | facebook (a : FacebookAdapter)
  | instagram (a : InstagramAdapter)
  | tikTok (a : TikTokAdapter)
  | whatsAppInteractive (a : WhatsAppInteractiveAdapter)
  | pushV2 (a : PushAdapterV2)
  | whatsAppV2 (a : WhatsAppAdapterV2)
  | voiceAI (a : VoiceAIAdapter)
  deriving DecidableEq, Repr

def Adapter.send (env : Env) (msg : OutboundMessage) : Adapter → Sent
  | log => sendLog msg
  | sms a => a.send env msg
  | push a => a.send env msg
  | whatsApp a => a.send env msg
  | ussd a => a.send env msg
  | email a => a.send env msg
  | twitter a => a.send env msg
  | facebook a => a.send env msg
  | instagram a => a.send env msg
  | tikTok a => a.send env msg
  | whatsAppInteractive a => a.send env msg
  | pushV2 a => a.send env msg
  | whatsAppV2 a => a.send env msg
  | voiceAI a => a.send env msg

/-- An answer with a 2xx status. -/
def Answer.Accepts (answer : Answer) : Prop := ∃ resp, answer = .ok resp ∧ resp.ok = true

/-- What is reported as delivered or pending was accepted by the provider, in every request. -/
def Sent.Honest (s : Sent) : Prop :=
  ∀ result ∈ s.result, result.status = "delivered" ∨ result.status = "pending" →
    ∀ e ∈ s.exchanges, Answer.Accepts e.2

/-- A request made through `Post` is not answered with another status and a body that can be read. -/
def PostAccepted (env : Env) (request : HttpRequest) : Prop :=
  env.newRequestError request.url = none → ∀ resp, env.answer request = .ok resp → resp.readError = none →
    resp.ok = true

/-- Media that the provider has taken is published, if the request to do so can be made. -/
def InstagramAdapter.Published (a : InstagramAdapter) (env : Env) (msg : OutboundMessage) : Prop :=
  env.newRequestError (a.mediaRequest msg).url = none → ∀ resp, env.answer (a.mediaRequest msg) = .ok resp →
    resp.ok = true →
      let publish := a.publishRequest (env.field ["id"] resp.body)
      env.newRequestError publish.url = none → Answer.Accepts (env.answer publish)

def Adapter.Answered (env : Env) (msg : OutboundMessage) : Adapter → Prop
  | instagram a => a.Published env msg
  | pushV2 a =>
      match token? env msg with
      | none => PostAccepted env (a.topicRequest msg)
      | some deviceToken => PostAccepted env (a.tokenRequest msg deviceToken)
  | whatsAppV2 a => PostAccepted env (a.request env msg)
  | _ => True

/-! ### What a report says -/

variable {env : Env} {msg : OutboundMessage} {request : HttpRequest}

theorem honest_of_failed {result : DeliveryResult} (h : result.status = "failed")
    (exchanges : List (HttpRequest × Answer)) :
    Sent.Honest ⟨some result, exchanges⟩ := by
  intro result' hresult hreported
  rw [Option.mem_some] at hresult
  rw [← hresult, h] at hreported
  rcases hreported with hdelivered | hpending
  · exact absurd hdelivered (by decide)
  · exact absurd hpending (by decide)

theorem honest_nil (result : Option DeliveryResult) : Sent.Honest ⟨result, []⟩ := by
  intro _ _ _ e he
  cases he

/-- The clients that look at the status. -/
theorem honest_exchange (env : Env) (request : HttpRequest) (accepted : Response → DeliveryResult)
    (refused : Response → String) : (exchange env request accepted refused).Honest := by
  unfold exchange
  split
  · exact honest_nil _
  · split
    · exact honest_of_failed rfl _
    · rename_i resp _
      cases hok : resp.ok with
      | true =>
          intro _ _ _ e he
          rw [List.mem_singleton.mp he]
          exact ⟨resp, rfl, hok⟩
      | false => exact honest_of_failed rfl _

theorem honest_delivered_iff {result : DeliveryResult} (h : result.status = "delivered")
    {exchanges : List (HttpRequest × Answer)} :
    Sent.Honest ⟨some result, exchanges⟩ ↔ ∀ e ∈ exchanges, Answer.Accepts e.2 := by
  constructor
  · intro honest
    exact honest result rfl (Or.inl h)
  · intro hanswered _ _ _
    exact hanswered

/-- The client that does not has an error, or the body of a response with any status. -/
theorem post_cases (env : Env) (request : HttpRequest) :
    (∃ err exchanges, post env request = (.error err, exchanges) ∧ PostAccepted env request) ∨
      ∃ resp, post env request = (.ok resp.body, [(request, .ok resp)]) ∧
        (PostAccepted env request ↔ resp.ok = true) := by
  unfold post PostAccepted
  cases hnew : env.newRequestError request.url with
  | some err => exact Or.inl ⟨err, [], rfl, nofun⟩
  | none =>
      cases hanswer : env.answer request with
      | error err => exact Or.inl ⟨err, [(request, .error err)], rfl, fun _ => nofun⟩
      | ok resp =>
          cases hread : resp.readError with
          | some err =>
              refine Or.inl ⟨err, [(request, .ok resp)], by simp [hread], ?_⟩
              intro _ resp' hresp' hread'
              rw [← Except.ok.inj hresp', hread] at hread'
              cases hread'
          | none =>
              refine Or.inr ⟨resp, by simp [hread], ?_⟩
              constructor
              · intro h
                exact h rfl resp rfl hread
              · intro hok _ resp' hresp' _
                rw [← Except.ok.inj hresp']
                exact hok

theorem accepts_single_iff {resp : Response} :
    (∀ e ∈ [(request, (.ok resp : Answer))], Answer.Accepts e.2) ↔ resp.ok = true := by
  rw [List.forall_mem_singleton]
  constructor
  · rintro ⟨resp', hresp', hok⟩
    rw [Except.ok.inj hresp']
    exact hok
  · intro hok
    exact ⟨resp, rfl, hok⟩

theorem InstagramAdapter.honest_iff_published (a : InstagramAdapter) :
    (a.send env msg).Honest ↔ a.Published env msg := by
  unfold InstagramAdapter.send InstagramAdapter.Published
  cases hnew : env.newRequestError (a.mediaRequest msg).url with
  | some err =>
      simp only [hnew]
      exact iff_of_true (honest_nil _) nofun
  | none =>
      cases hanswer : env.answer (a.mediaRequest msg) with
      | error err =>
          simp only [hnew, hanswer]
          exact iff_of_true (honest_of_failed rfl _) fun _ => nofun
      | ok resp =>
          simp only [hnew, hanswer, forall_const, Except.ok.injEq, forall_eq']
          cases hok : resp.ok with
          | false => exact iff_of_true (honest_of_failed rfl _) nofun
          | true =>
              rw [if_pos rfl]
              cases hpublish : env.newRequestError (a.publishRequest (env.field ["id"] resp.body)).url with
              | some err =>
                  refine iff_of_true ?_ nofun
                  intro _ hnone
                  cases hnone
              | none =>
                  rw [honest_delivered_iff rfl]
                  constructor
                  · intro h _ _
                    exact h _ (List.mem_cons_of_mem _ (List.mem_singleton_self _))
                  · intro h e he
                    rcases List.mem_cons.mp he with hfirst | hsecond
                    · rw [hfirst]
                      exact ⟨resp, rfl, hok⟩
                    · rw [List.mem_singleton.mp hsecond]
                      exact h rfl rfl

theorem PushAdapterV2.honest_iff_posted (a : PushAdapterV2) :
    (a.send env msg).Honest ↔ (Adapter.pushV2 a).Answered env msg := by
  unfold PushAdapterV2.send Adapter.Answered
  cases htoken : token? env msg with
  | none =>
      unfold PushAdapterV2.sendToTopic
      rcases post_cases env (a.topicRequest msg) with ⟨err, exchanges, hpost, hposted⟩ | ⟨resp, hpost, hposted⟩
      · rw [hpost]
        exact iff_of_true (honest_of_failed rfl _) hposted
      · rw [hpost]
        exact (honest_delivered_iff rfl).trans (accepts_single_iff.trans hposted.symm)
  | some deviceToken =>
      rcases post_cases env (a.tokenRequest msg deviceToken) with ⟨err, exchanges, hpost,
        hposted⟩ | ⟨resp, hpost, hposted⟩
      · simp only [hpost]
        exact iff_of_true (honest_of_failed rfl _) hposted
      · simp only [hpost]
        exact (honest_delivered_iff rfl).trans (accepts_single_iff.trans hposted.symm)

theorem WhatsAppAdapterV2.honest_iff_posted (a : WhatsAppAdapterV2) :
    (a.send env msg).Honest ↔ PostAccepted env (a.request env msg) := by
  unfold WhatsAppAdapterV2.send
  rcases post_cases env (a.request env msg) with ⟨err, exchanges, hpost, hposted⟩ | ⟨resp, hpost, hposted⟩
  · rw [hpost]
    exact iff_of_true (honest_of_failed rfl _) hposted
  · rw [hpost]
    exact (honest_delivered_iff rfl).trans (accepts_single_iff.trans hposted.symm)

theorem SMSAdapter.honest_send (a : SMSAdapter) : (a.send env msg).Honest := by
  unfold SMSAdapter.send
  split
  · split
    · exact honest_nil _
    · exact honest_exchange env _ _ _
  · split
    · exact honest_exchange env _ _ _
    · exact honest_nil _

theorem EmailAdapter.honest_send (a : EmailAdapter) : (a.send env msg).Honest := by
  unfold EmailAdapter.send
  split
  · exact honest_exchange env _ _ _
  · split
    · exact honest_exchange env _ _ _
    · exact honest_nil _

/-- A call is reported as initiated, and as nothing else. -/
theorem VoiceAIAdapter.honest_send (a : VoiceAIAdapter) : (a.send env msg).Honest := by
  unfold VoiceAIAdapter.send
  split
  · exact honest_nil _
  · simp only
    split
    · exact honest_nil _
    · split
      · exact honest_of_failed rfl _
      · intro result hresult hreported
        rw [Option.mem_some] at hresult
        rw [← hresult] at hreported
        rcases hreported with hdelivered | hpending
        · exact absurd hdelivered (by decide)
        · exact absurd hpending (by decide)

/-- No adapter reports a delivery that a provider has not accepted, but for the three that do not look. -/
theorem honest_send_iff (adapter : Adapter) (env : Env) (msg : OutboundMessage) :
    (adapter.send env msg).Honest ↔ adapter.Answered env msg := by
  cases adapter with
  | log => exact iff_of_true (honest_nil _) trivial
  | sms a => exact iff_of_true a.honest_send trivial
  | push a => exact iff_of_true (honest_exchange env _ _ _) trivial
  | whatsApp a => exact iff_of_true (honest_exchange env _ _ _) trivial
  | ussd a => exact iff_of_true (honest_exchange env _ _ _) trivial
  | email a => exact iff_of_true a.honest_send trivial
  | twitter a => exact iff_of_true (honest_exchange env _ _ _) trivial
  | facebook a => exact iff_of_true (honest_exchange env _ _ _) trivial
  | instagram a => exact a.honest_iff_published
  | tikTok a => exact iff_of_true (honest_exchange env _ _ _) trivial
  | whatsAppInteractive a => exact iff_of_true (honest_exchange env _ _ _) trivial
  | pushV2 a => exact a.honest_iff_posted
  | whatsAppV2 a => exact a.honest_iff_posted
  | voiceAI a => exact iff_of_true a.honest_send trivial

/-! ### What is fabricated -/

def response (statusCode : Nat) : Response := ⟨statusCode, "", "", "", none⟩

/-- A provider that is not there, but for the media of one account. -/
def unavailable : Env where
  newRequestError := fun _ => none
  answer := fun request =>
    .ok (response (if request.url = "https://graph.facebook.com/v18.0/1/media" then 200 else 503))
  recipients := fun _ => none
  messages := fun _ => none
  field := fun _ _ => ""
  printedName := fun _ => "<nil>"
  printedId := fun _ => ""
  deviceToken := fun _ => none
  withinWindow := fun _ => false
  vapiPhoneId := ""

def aMessage : OutboundMessage := ⟨"campaign", "contact", 1, "+2348031234567", "Ada", "Vote", "a"⟩

theorem answer_unavailable {request : HttpRequest} (h : request.url ≠ "https://graph.facebook.com/v18.0/1/media") :
    unavailable.answer request = .ok (response 503) := by
  show Except.ok (response (if _ then 200 else 503)) = _
  rw [if_neg h]

theorem not_posted_unavailable {request : HttpRequest}
    (h : request.url ≠ "https://graph.facebook.com/v18.0/1/media") :
    ¬PostAccepted unavailable request := by
  intro hposted
  exact absurd (hposted rfl _ (answer_unavailable h) rfl) (by decide)

/-- Not accepted by the provider: a push, a message of the second version, and a post that is not published. -/
theorem delivery_fabricated :
    (¬ ∀ env msg a, ((Adapter.pushV2 a).send env msg).Honest) ∧
      (¬ ∀ env msg a, ((Adapter.whatsAppV2 a).send env msg).Honest) ∧
      ¬ ∀ env msg a, ((Adapter.instagram a).send env msg).Honest := by
  refine ⟨fun h => ?_, fun h => ?_, fun h => ?_⟩
  · have hposted := (PushAdapterV2.honest_iff_posted ⟨"key", "project"⟩).mp (h unavailable aMessage _)
    exact not_posted_unavailable (by decide +kernel) hposted
  · have hposted := (WhatsAppAdapterV2.honest_iff_posted ⟨"https://api", "token", "id", "gotv_reminder"⟩).mp
      (h unavailable aMessage _)
    exact not_posted_unavailable (by decide +kernel) hposted
  · have hpublished := (InstagramAdapter.honest_iff_published ⟨"1", "token"⟩).mp (h unavailable aMessage _)
    obtain ⟨resp, hanswer, hok⟩ := hpublished rfl (response 200) (by decide +kernel) rfl rfl
    rw [answer_unavailable (by decide +kernel), Except.ok.injEq] at hanswer
    rw [← hanswer] at hok
    exact absurd hok (by decide)

end Inec.Adapters
