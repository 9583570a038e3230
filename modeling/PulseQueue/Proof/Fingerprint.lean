import PulseQueue.Model.Api
import PulseQueue.Proof.Submissions

/-!
# Fingerprints of submissions

The hashed document has the request as it came, with null for an omitted field, next to the values with
the defaults filled in. So two submissions have the same fingerprint when their effective requests are
equal and they omit the same fields (`fingerprint_iff`), and of two submissions with equal effective
requests of which only one relies on a default, the second one is answered with a conflict. The
fingerprint captures the effective request exactly when this does not happen (`fingerprint_captures_iff`).
-/

namespace PulseQueue

open Txn Trace Table

/-! ## Documents -/

mutual

/-- Equal up to the order of object keys. -/
inductive Json.Same : Json → Json → Prop
  | null : Json.Same .null .null
  | bool (b : Bool) : Json.Same (.bool b) (.bool b)
  | int (n : Int) : Json.Same (.int n) (.int n)
  | float (x : PyFloat) : Json.Same (.float x) (.float x)
  | str (s : String) : Json.Same (.str s) (.str s)
  | arr {l l' : List Json} : SameItems l l' → Json.Same (.arr l) (.arr l')
  | obj {kv kv₁ kv' : List (String × Json)} : kv.Perm kv₁ → SameFields kv₁ kv' →
      Json.Same (.obj kv) (.obj kv')

inductive SameItems : List Json → List Json → Prop
  | nil : SameItems [] []
  | cons {a b : Json} {l l' : List Json} : Json.Same a b → SameItems l l' →
      SameItems (a :: l) (b :: l')

/-- The same keys in the same order. -/
inductive SameFields : List (String × Json) → List (String × Json) → Prop
  | nil : SameFields [] []
  | cons (k : String) {a b : Json} {l l' : List (String × Json)} : Json.Same a b → SameFields l l' →
      SameFields ((k, a) :: l) ((k, b) :: l')

end

theorem SameFields.keys : ∀ {l l' : List (String × Json)}, SameFields l l' →
    l.map (·.1) = l'.map (·.1)
  | _, _, .nil => rfl
  | _, _, .cons k _ h => congrArg (k :: ·) h.keys

/-- Objects whose keys are listed in the same order are compared key by key. -/
theorem same_obj {kv kv' : List (String × Json)} (hn : (kv.map (·.1)).Nodup)
    (hk : kv.map (·.1) = kv'.map (·.1)) :
    Json.Same (.obj kv) (.obj kv') ↔ SameFields kv kv' := by
  constructor
  · intro h
    cases h with
    | obj hp hf =>
      rw [eq_of_perm_of_keys hn hp (hk.trans hf.keys.symm)]
      exact hf
  · exact fun h => .obj (.refl _) h

theorem sameFields_cons {k : String} {a b : Json} {l l' : List (String × Json)} :
    SameFields ((k, a) :: l) ((k, b) :: l') ↔ a.Same b ∧ SameFields l l' := by
  constructor
  · intro h
    cases h with
    | cons _ hab hl => exact ⟨hab, hl⟩
  · exact fun h => .cons k h.1 h.2

theorem sameFields_nil : SameFields [] [] ↔ True := iff_true_intro .nil

theorem same_int {m n : Int} : (Json.int m).Same (.int n) ↔ m = n := by
  constructor
  · intro h
    cases h
    rfl
  · rintro rfl
    exact .int m

theorem same_float {x y : PyFloat} : (Json.float x).Same (.float y) ↔ x = y := by
  constructor
  · intro h
    cases h
    rfl
  · rintro rfl
    exact .float x

theorem same_str {x y : String} : (Json.str x).Same (.str y) ↔ x = y := by
  constructor
  · intro h
    cases h
    rfl
  · rintro rfl
    exact .str x

/-- A field that is null when absent. -/
theorem same_optional {α : Type} {f : α → Json} (hf : ∀ a b, (f a).Same (f b) ↔ a = b)
    (hnull : ∀ a, ¬ (f a).Same .null ∧ ¬ Json.null.Same (f a)) {x y : Option α} :
    ((x.map f).getD .null).Same ((y.map f).getD .null) ↔ x = y := by
  cases x with
  | none =>
    cases y with
    | none => simpa using Json.Same.null
    | some b => simpa using (hnull b).2
  | some a =>
    cases y with
    | none => simpa using (hnull a).1
    | some b => simpa using hf a b

/-! ## Submissions -/

/-- A `POST /jobs`, with the configuration in force. -/
structure Post where
  config : RuntimeConfig
  request : JobCreate

namespace Post

variable (deps : Deps) (p q : Post)

/-- The effective `max_retries`. -/
def maxRetries : Nat := p.config.effectiveRetries p.request.maxRetries

/-- The effective `timeout_seconds`. -/
def timeoutSeconds : PyFloat := p.config.effectiveTimeout p.request.timeoutSeconds

/-- The document of `job_request_fingerprint`. -/
def document : Json :=
  .obj [("request", p.request.modelDump deps), ("max_retries", .int p.maxRetries),
    ("timeout_seconds", .float p.timeoutSeconds)]

def text : String := deps.dumps (p.document deps)

def fingerprint : String := deps.sha256 (p.text deps)

/-- The fingerprint of the repository call that the route makes. -/
theorem fingerprint_eq {t : ℚ} (h : p.timeoutSeconds = .rat t) :
    p.fingerprint deps = jobRequestFingerprint deps p.request p.maxRetries t := by
  simp only [fingerprint, text, document, h, jobRequestFingerprint]

/-- The same payload, priority, instant, retries and timeout, with the defaults filled in. -/
structure SameEffect : Prop where
  payload : (Json.obj p.request.payload).Same (.obj q.request.payload)
  priority : p.request.priority = q.request.priority
  runAt : p.request.runAt = q.request.runAt
  maxRetries : p.maxRetries = q.maxRetries
  timeoutSeconds : p.timeoutSeconds = q.timeoutSeconds

/-- The requests leave the same fields to the defaults. -/
def SameOmissions : Prop :=
  p.request.maxRetries.isSome = q.request.maxRetries.isSome ∧
    p.request.timeoutSeconds.isSome = q.request.timeoutSeconds.isSome

variable {deps p q}

/-- With equal effective values, the given values are equal when the same fields are given. -/
theorem SameEffect.given (h : p.SameEffect q) : p.SameOmissions q ↔
    p.request.maxRetries = q.request.maxRetries ∧ p.request.timeoutSeconds = q.request.timeoutSeconds := by
  have hm := h.maxRetries
  have ht := h.timeoutSeconds
  simp only [Post.maxRetries, RuntimeConfig.effectiveRetries, Post.timeoutSeconds,
    RuntimeConfig.effectiveTimeout] at hm ht
  unfold SameOmissions
  generalize p.request.maxRetries = m at hm ⊢
  generalize q.request.maxRetries = m' at hm ⊢
  generalize p.request.timeoutSeconds = t at ht ⊢
  generalize q.request.timeoutSeconds = t' at ht ⊢
  refine and_congr ?_ ?_
  · cases m <;> cases m' <;> simp_all
  · cases t <;> cases t' <;> simp_all

/-- The dump of a request, field by field. -/
theorem same_modelDump (hdt : Function.Injective deps.jsonDatetime) {r r' : JobCreate} :
    (r.modelDump deps).Same (r'.modelDump deps) ↔ (Json.obj r.payload).Same (.obj r'.payload) ∧
      r.priority = r'.priority ∧ r.maxRetries = r'.maxRetries ∧ r.timeoutSeconds = r'.timeoutSeconds ∧
      r.runAt = r'.runAt := by
  have hretries := @same_optional Nat (fun n => Json.int n) (fun a b => by simp [same_int])
    (fun a => ⟨nofun, nofun⟩) r.maxRetries r'.maxRetries
  have htimeout := @same_optional ℚ (fun t => Json.float (.rat t)) (fun a b => by simp [same_float])
    (fun a => ⟨nofun, nofun⟩) r.timeoutSeconds r'.timeoutSeconds
  have hrun := @same_optional UtcTime (fun t => Json.str (deps.jsonDatetime t))
    (fun a b => same_str.trans hdt.eq_iff) (fun a => ⟨nofun, nofun⟩) r.runAt r'.runAt
  have hdump : ∀ r : JobCreate, r.modelDump deps = .obj [("payload", .obj r.payload),
      ("priority", .int r.priority), ("max_retries", (r.maxRetries.map fun n : Nat => Json.int n).getD .null),
      ("timeout_seconds", (r.timeoutSeconds.map fun q => Json.float (.rat q)).getD .null),
      ("run_at", (r.runAt.map fun t => Json.str (deps.jsonDatetime t)).getD .null)] := by
    intro r
    unfold JobCreate.modelDump
    cases r.maxRetries <;> rfl
  rw [hdump, hdump, same_obj]
  · rw [sameFields_cons, sameFields_cons, sameFields_cons, sameFields_cons, sameFields_cons,
      sameFields_nil, and_true, same_int, hretries, htimeout, hrun]
  · simp
  · rfl

/-- The documents of two submissions are the same up to key order when the effective requests are equal
and the requests omit the same fields. -/
theorem same_document (hdt : Function.Injective deps.jsonDatetime) :
    (p.document deps).Same (q.document deps) ↔ p.SameEffect q ∧ p.SameOmissions q := by
  unfold document
  rw [same_obj]
  · rw [sameFields_cons, sameFields_cons, sameFields_cons, sameFields_nil, and_true, same_modelDump hdt,
      same_int, same_float, Int.natCast_inj]
    constructor
    · rintro ⟨⟨hpay, hprio, hm, ht, hr⟩, hem, het⟩
      have he : p.SameEffect q := ⟨hpay, hprio, hr, hem, het⟩
      exact ⟨he, he.given.2 ⟨hm, ht⟩⟩
    · rintro ⟨he, ho⟩
      obtain ⟨hm, ht⟩ := he.given.1 ho
      exact ⟨⟨he.payload, he.priority, hm, ht, he.runAt⟩, he.maxRetries, he.timeoutSeconds⟩
  · simp
  · rfl

/-- The fingerprint tells more than the effective request. -/
theorem fingerprint_iff
    (hsha : deps.sha256 (p.text deps) = deps.sha256 (q.text deps) → p.text deps = q.text deps)
    (hdumps : p.text deps = q.text deps ↔ (p.document deps).Same (q.document deps))
    (hdt : Function.Injective deps.jsonDatetime) :
    p.fingerprint deps = q.fingerprint deps ↔ p.SameEffect q ∧ p.SameOmissions q := by
  rw [← same_document hdt, ← hdumps]
  constructor
  · exact hsha
  · intro h
    rw [fingerprint, fingerprint, h]

end Post

/-! ## Repeated keys -/

/-- The fingerprint says whether the effective requests are equal, and so a later submission `q` with the
key that `p` was stored under, in any state of a run, returns the job of `p` or raises the conflict. -/
structure Captures (deps : Deps) (p q : Post) : Prop where
  fingerprint : p.fingerprint deps = q.fingerprint deps ↔ p.SameEffect q
  repeated : ∀ (engine : Engine) (h : History Event Store), Run deps engine h →
    ∀ (key : String) (r : JobRow), key ≠ "" → KeyRow (present h) key r →
    r.requestFingerprint = some (p.fingerprint deps) →
    ∀ (now : UtcTime) (jobId : String) (t : ℚ), q.timeoutSeconds = .rat t →
      let result := engine.createJob deps now jobId q.request q.maxRetries t (some key) (present h)
      (p.SameEffect q → result = (.ok (some (jobFromRow deps r)), present h)) ∧
        (¬ p.SameEffect q → result = (.error (.idempotencyConflict conflictMessage), present h))

section
variable {deps : Deps} {p q : Post}

theorem Captures.of_fingerprint (hf : p.fingerprint deps = q.fingerprint deps ↔ p.SameEffect q) :
    Captures deps p q := by
  refine ⟨hf, fun engine h hrun key r hkey hr hfp now jobId t ht => ?_⟩
  intro result
  have hresult : result = (found deps (q.fingerprint deps) r, present h) := by
    rw [Post.fingerprint_eq deps q ht]
    exact createJob_found hrun.sound.ok hkey hr ..
  rw [hresult]
  constructor
  · intro he
    rw [found, if_pos (hfp.trans (congrArg some (hf.2 he)))]
  · intro he
    rw [found, if_neg]
    intro h
    exact he (hf.1 (Option.some.inj (hfp.symm.trans h)))

/-- Assumed of the two submissions: SHA-256 has no collision on their texts, `json.dumps` with sorted keys
writes their documents alike when they are equal up to key order, and only then, and different
instants have different texts. -/
theorem fingerprint_captures_iff (deps : Deps) (p q : Post)
    (hsha : deps.sha256 (p.text deps) = deps.sha256 (q.text deps) → p.text deps = q.text deps)
    (hdumps : p.text deps = q.text deps ↔ (p.document deps).Same (q.document deps))
    (hdt : Function.Injective deps.jsonDatetime) :
    Captures deps p q ↔ (p.SameEffect q → p.SameOmissions q) := by
  have hf := Post.fingerprint_iff hsha hdumps hdt
  constructor
  · intro h he
    exact (hf.1 (h.fingerprint.2 he)).2
  · intro h
    exact Captures.of_fingerprint (hf.trans ⟨fun he => he.1, fun he => ⟨he, h he⟩⟩)

end

/-! ## Two ways to say three retries -/

mutual

/-- `json.dumps(..., separators=(",", ":"), sort_keys=True)` of documents whose strings need no escape and
whose floats are whole. -/
def Json.compact : Json → String
  | .null => "null"
  | .bool b => if b then "true" else "false"
  | .int n => toString n
  | .float (.rat x) => toString x.floor ++ ".0"
  | .float .nan => "NaN"
  | .str s => "\"" ++ s ++ "\""
  | .arr l => "[" ++ ",".intercalate (compactItems l) ++ "]"
  | .obj kv =>
    "\x7b" ++ ",".intercalate ((orderBy (fun a b => a.1 ≤ b.1) (compactFields kv)).map (·.2)) ++ "\x7d"

def compactItems : List Json → List String
  | [] => []
  | a :: l => a.compact :: compactItems l

/-- The keys with the texts of their fields. -/
def compactFields : List (String × Json) → List (String × String)
  | [] => []
  | (k, a) :: l => (k, "\"" ++ k ++ "\":" ++ a.compact) :: compactFields l

end

/-- The texts of the three submissions below, up to the retries. -/
def postText (given effective : String) : String :=
  "\x7b\"max_retries\":" ++ effective ++ ",\"request\":\x7b\"max_retries\":" ++ given ++
    ",\"payload\":\x7b\x7d,\"priority\":0,\"run_at\":null,\"timeout_seconds\":null\x7d," ++
    "\"timeout_seconds\":5.0\x7d"

/-- The digests of the three texts. -/
def postDigest (text : String) : String :=
  if text = postText "null" "3" then "0943057e97bf923231662d74c649faf811880bb9e838ab6769ee53f12111bb67"
  else if text = postText "3" "3" then "21be0a2a445c11e9b1fd73e14333b5d056e6b6a8859a34960c7780178c28b884"
  else if text = postText "null" "4" then "cd693a4f3d12dcd81270d40134332a64a6fba5e692cf28f13d07eb7f7619149b"
  else text

def postDeps : Deps := { sampleDeps with dumps := Json.compact, sha256 := postDigest }

/-- Three retries by default. -/
def omittedPost : Post := ⟨⟨⟨3, .rat 5, .rat 60, 2, .rat 1, .rat 30⟩, by decide +kernel⟩, sampleRequest⟩

/-- Three retries by request. -/
def explicitPost : Post :=
  ⟨omittedPost.config, { sampleRequest with maxRetries := some 3, maxRetries_le := by simp }⟩

/-- Four retries by default. -/
def raisedPost : Post :=
  ⟨⟨⟨4, .rat 5, .rat 60, 2, .rat 1, .rat 30⟩, by decide +kernel⟩, sampleRequest⟩

theorem postDeps_jsonDatetime : Function.Injective postDeps.jsonDatetime := by
  intro t t' h
  exact toDbTime_inj.1 (DbTime.text_injective (String.ofList_injective h))

/-- The default has changed, and the fingerprint with it. -/
theorem fingerprint_captures_raised : Captures postDeps omittedPost raisedPost ∧
    omittedPost.fingerprint postDeps ≠ raisedPost.fingerprint postDeps := by
  have htext : omittedPost.text postDeps ≠ raisedPost.text postDeps := by decide +kernel
  have hfp : omittedPost.fingerprint postDeps ≠ raisedPost.fingerprint postDeps := by decide +kernel
  have hsame : ¬ (omittedPost.document postDeps).Same (raisedPost.document postDeps) := by
    intro h
    have he := ((Post.same_document postDeps_jsonDatetime).1 h).1.maxRetries
    exact absurd he (by decide)
  refine ⟨(fingerprint_captures_iff postDeps omittedPost raisedPost (fun h => absurd h hfp)
    (iff_of_false htext hsame) postDeps_jsonDatetime).2 fun _ => ⟨rfl, rfl⟩, hfp⟩

/-- The store after the first submission with the key `k`. -/
def omittedStored : History Event Store :=
  afterCall postDeps .sqlite []
    (.createJob (sampleTime 0) "a" omittedPost.request omittedPost.maxRetries 5 (some "k"))

/-- The same effective request with the same key, once by default and once by request, is a conflict. -/
theorem fingerprint_fails : omittedPost.SameEffect explicitPost ∧
    (∃ r, Run postDeps .sqlite omittedStored ∧ KeyRow (present omittedStored) "k" r ∧
      r.requestFingerprint = some (omittedPost.fingerprint postDeps)) ∧
    Sqlite.createJob postDeps (sampleTime 1) "b" explicitPost.request explicitPost.maxRetries 5 (some "k")
      (present omittedStored) = (.error (.idempotencyConflict conflictMessage), present omittedStored) ∧
    ¬ Captures postDeps omittedPost explicitPost := by
  have heffect : omittedPost.SameEffect explicitPost :=
    ⟨.obj (.refl _) .nil, rfl, rfl, rfl, rfl⟩
  have hrun : Run postDeps .sqlite omittedStored := Run.afterCall .nil (Allowed.of_none rfl)
  have hne : omittedPost.fingerprint postDeps ≠ explicitPost.fingerprint postDeps := by decide +kernel
  have hrow : ∃ r, KeyRow (present omittedStored) "k" r ∧
      r.requestFingerprint = some (omittedPost.fingerprint postDeps) :=
    ⟨_, ⟨List.mem_singleton_self _, rfl⟩, rfl⟩
  obtain ⟨r, hr, hfp⟩ := hrow
  refine ⟨heffect, ⟨r, hrun, hr, hfp⟩, ?_, fun h => hne (h.fingerprint.2 heffect)⟩
  have hx : Engine.sqlite.createJob postDeps (sampleTime 1) "b" explicitPost.request
      explicitPost.maxRetries 5 (some "k") (present omittedStored) = _ :=
    createJob_found hrun.sound.ok (by decide) hr (sampleTime 1) "b" explicitPost.request
      explicitPost.maxRetries 5
  refine hx.trans ?_
  rw [← Post.fingerprint_eq postDeps explicitPost rfl, found, if_neg]
  rw [hfp, Option.some.injEq]
  exact hne

end PulseQueue
