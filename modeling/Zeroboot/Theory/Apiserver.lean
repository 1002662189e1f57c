import Zeroboot.Core.Manifests
import Zeroboot.Lib.Versions

/-!
# An Apiserver

What the script that applies the manifests relies on.

The server is outside. `Api` says what is seen of one: how it answers, what
others may do to it, which object is at which URL with which version, and what
it makes of a manifest where it had an object or none. `Api.Lawful` is what its
documentation promises: an object is created where there is none, and replaced
on condition of its version, a version is given out once, and what was refused
was not done. Of a request that ended in an error of the server, or without an
answer at all, nothing is promised.

## Main definitions

* `Api`, `Api.Lawful`: An apiserver, and what it promises.
* `Api.Takes`: A manifest is taken.
* `Api.ReadSince`: An object was read, and nobody wrote it since.
* `Api.Only`: A step in which the script touches some objects at most.
* `Shelf`, `Shelf.api`: A server in memory.

## Theorems

* `Api.Lawful.readSince`: What still has the version that was read.
* `target_name`: Where the object of a manifest is.
* `Shelf.api_lawful`: The server in memory promises the same.
-/

namespace Zeroboot.Manifests

/-! ## The server -/

/-- An apiserver, as it is seen from outside. -/
structure Api (S O : Type) where
  serves : S → Request → Reply → S → Prop
  others : S → S → Prop
  versions : Versions S String O String
  settles : Option O → Py → O

/-- The name that a manifest gives its object. -/
def nameOf (obj : Py) : Option String :=
  match obj.get "metadata" (.dict []) >>= (·.get "name" .null) with
  | .ok (.str name) => some name
  | _ => none

namespace Api

variable {S O : Type} (A : Api S O)

/-- A step of the server, for the script or for others. -/
def Steps (s : S) (l : Option (Request × Reply)) (s' : S) : Prop :=
  match l with
  | none => A.others s s'
  | some (q, r) => A.serves s q r s'

/-- The objects stay as they are, and so do their versions. -/
def Same (s s' : S) : Prop :=
  ∀ url, A.versions.live s' url = A.versions.live s url

/-- The server takes a manifest, and touches nothing else. -/
def Takes (s : S) (url : String) (obj : Py) (s' : S) : Prop :=
  (∃ w, A.versions.live s' url =
    some (w, A.settles ((A.versions.live s url).map Prod.snd) obj)) ∧
    ∀ other, other ≠ url → A.versions.live s' other = A.versions.live s other

/-- What may have become of a write under a condition. One that was done was
    not refused, and one that was not done was not confirmed. -/
def Decides (s : S) (url : String) (obj : Py) (cond : Prop) (r : Reply) (s' : S) : Prop :=
  (A.Same s s' ∧ ∀ body, r ≠ .ok body) ∨
    (cond ∧ A.Takes s url obj s' ∧ ∀ code body, r = .httpError code body → 500 ≤ code)

/-- What an apiserver promises. -/
structure Lawful : Prop where
  versions : A.versions.Lawful A.Steps
  given : ∀ {s url w o}, A.versions.live s url = some (w, o) → A.versions.used s w
  post : ∀ {s coll obj name r s'},
    A.serves s { method := .post, url := coll, body := some obj } r s' → nameOf obj = some name →
      A.Decides s (coll ++ "/" ++ name) obj (A.versions.live s (coll ++ "/" ++ name) = none) r s'
  get : ∀ {s url r s'}, A.serves s { method := .get, url := url, body := none } r s' → A.Same s s'
  read : ∀ {s url body s'}, A.serves s { method := .get, url := url, body := none } (.ok body) s' →
    ∃ w o, A.versions.live s url = some (w, o) ∧ liveVersion body = .ok (.str w)
  put : ∀ {s url obj w r s'}, A.serves s { method := .put, url := url, body := some obj } r s' →
    liveVersion obj = .ok (.str w) →
      A.Decides s url obj (∃ o, A.versions.live s url = some (w, o)) r s'
  settles : ∀ {old obj v obj'}, setVersion obj v = .ok obj' → A.settles old obj' = A.settles old obj

variable {A} {s s' : S} {ls : List (Option (Request × Reply))} {R : Type}
  {us : String → Prop}

/-- A run of the server and the script is one of the server. -/
theorem steps_of_acts {p p' : Client Request Reply R}
    (h : Trace (Client.Acts A.serves A.others) (s, p) ls (s', p')) : Trace A.Steps s ls s' := by
  have hstep : ∀ {x x' : S × Client Request Reply R} {l : Option (Request × Reply)} {a : S},
      x.1 = a → True → Client.Acts A.serves A.others x l x' →
        ∃ a', A.Steps a l a' ∧ x'.1 = a' := by
    rintro x x' l a rfl - hacts
    cases hacts with
    | other hother => exact ⟨_, hother, rfl⟩
    | answer hanswer => exact ⟨_, hanswer, rfl⟩
  rcases Trace.simulates (Q := fun _ => True) (R := fun x a => x.1 = a) hstep h
    (fun _ _ => trivial) rfl with ⟨a', htrace, rfl⟩
  exact htrace

/-- And so is one of the others alone. -/
theorem steps_of_idle (h : Trace (Client.Idle A.others) s ls s') : Trace A.Steps s ls s' :=
  steps_of_acts (R := Unit) (Client.waits h (.done ()))

/-- Somewhere in the run the object was read, and nobody wrote it since. -/
def ReadSince (A : Api S O) (s : S) (ls : List (Option (Request × Reply))) (url : String)
    (s' : S) : Prop :=
  ∃ before body quiet s0 s1,
    ls = before ++ some ({ method := .get, url := url, body := none }, .ok body) :: quiet ∧
      Trace A.Steps s before s0 ∧
      A.serves s0 { method := .get, url := url, body := none } (.ok body) s1 ∧
      Trace (fun a l b => Client.Idle A.others a l b ∧
        A.versions.live b url = A.versions.live a url) s1 quiet s'

theorem ReadSince.before {url : String} {s1 : S} {ls' : List (Option (Request × Reply))}
    (h : Trace A.Steps s ls s1) (hread : A.ReadSince s1 ls' url s') :
    A.ReadSince s (ls ++ ls') url s' := by
  rcases hread with ⟨before, body, quiet, s0, s2, rfl, hbefore, hget, hquiet⟩
  exact ⟨ls ++ before, body, quiet, s0, s2, (List.append_assoc _ _ _).symm, h.append hbefore, hget,
    hquiet⟩

/-- An object that still has the version that was read is the one that was
    read. -/
theorem Lawful.readSince (hA : A.Lawful) {url w : String} {o : O} {body : Py} {s0 s1 : S}
    {before quiet : List (Option (Request × Reply))} (hbefore : Trace A.Steps s before s0)
    (hget : A.serves s0 { method := .get, url := url, body := none } (.ok body) s1)
    (hversion : liveVersion body = .ok (.str w)) (hquiet : Trace (Client.Idle A.others) s1 quiet s')
    (hlive : A.versions.live s' url = some (w, o)) :
    A.ReadSince s (before ++ some ({ method := .get, url := url, body := none }, .ok body) :: quiet)
      url s' := by
  rcases hA.read hget with ⟨w', o', hlive0, hversion'⟩
  have hw : w' = w := Py.str.inj (Except.ok.inj (hversion'.symm.trans hversion))
  rw [hw, ← hA.get hget url] at hlive0
  have hidle : A.versions.Lawful (Client.Idle (Q := Request) (R := Reply) A.others) :=
    { remembered := fun h => by
        rcases h with ⟨rfl, h⟩
        exact hA.versions.remembered (l := none) h
      fresh := fun h => by
        rcases h with ⟨rfl, h⟩
        exact hA.versions.fresh (l := none) h }
  exact ⟨before, body, quiet, s0, s1, rfl, hbefore, hget,
    (Versions.unchanged hidle hquiet (hA.given hlive0) hlive0 hlive).2⟩

/-- A step in which the script touches these objects at most. -/
def Only (A : Api S O) (us : String → Prop) (a : S) (l : Option (Request × Reply)) (b : S) :
    Prop :=
  A.Steps a l b ∧
    (l.isSome = true → ∀ url, ¬ us url → A.versions.live b url = A.versions.live a url)

theorem Only.idle (h : Trace (Client.Idle A.others) s ls s') : Trace (A.Only us) s ls s' := by
  induction h with
  | done s => exact .done s
  | next first _ ih =>
      rcases first with ⟨rfl, hother⟩
      exact .next ⟨hother, fun hl => absurd hl
        (by simp only [Option.isSome_none, Bool.false_eq_true, not_false_eq_true])⟩ ih

/-- An object that neither the script nor the others touch. -/
theorem Only.frame {url : String} (h : Trace (A.Only us) s ls s') (hurl : ¬ us url)
    (hothers : ∀ a b, A.others a b → A.versions.live b url = A.versions.live a url) :
    A.versions.live s' url = A.versions.live s url := by
  induction h with
  | done s => rfl
  | @next s s1 s' l ls first rest ih =>
      rcases l with _ | _
      · rw [ih]
        exact hothers _ _ first.1
      · rw [ih]
        exact first.2 rfl url hurl

/-- While the script waits, only the others could touch it. -/
theorem idle_frame {url : String} (h : Trace (Client.Idle A.others) s ls s')
    (hothers : ∀ a b, A.others a b → A.versions.live b url = A.versions.live a url) :
    A.versions.live s' url = A.versions.live s url := by
  have honly : Trace (A.Only fun _ => False) s ls s' := Only.idle h
  exact Only.frame honly not_false hothers

end Api

/-! ## Manifests -/

/-- A computation that went well went well step by step. -/
theorem bind_ok {X Y : Type} {x : Except Ended X} {f : X → Except Ended Y} {y : Y}
    (h : x >>= f = .ok y) : ∃ a, x = .ok a ∧ f a = .ok y := by
  rcases x with e | a
  · exact absurd h (by simp only [bind, Except.bind, reduceCtorEq, not_false_eq_true])
  · exact ⟨a, rfl, h⟩

theorem lookup_setField (key : String) (x : Py) (fields : List (String × Py)) :
    (Py.setField key x fields).lookup key = some x := by
  induction fields with
  | nil => simp only [Py.setField, List.lookup_cons_self]
  | cons field fields ih =>
      rcases field with ⟨k, y⟩
      by_cases hk : k = key
      · simp only [Py.setField, if_pos hk, List.lookup_cons_self]
      · have hk' : (key == k) = false := beq_eq_false_iff_ne.mpr (Ne.symm hk)
        simp only [Py.setField, if_neg hk, List.lookup_cons, hk', ih]

theorem setItem_ok {v x v' : Py} {key : String} (h : v.setItem key x = .ok v') (other : Py) :
    v'.get key other = .ok x := by
  rcases v with _ | _ | _ | _ | _ | _ | fields
  case dict =>
    simp only [Py.setItem, Except.ok.injEq] at h
    rw [← h]
    simp only [Py.get, lookup_setField, Option.getD_some]
  all_goals
    simp only [Py.setItem, reduceCtorEq] at h

/-- The version that was put into a manifest is found there. -/
theorem liveVersion_setVersion {obj obj' v : Py} (h : setVersion obj v = .ok obj') :
    liveVersion obj' = .ok v := by
  rcases bind_ok h with ⟨_, _, hrest⟩
  rcases bind_ok hrest with ⟨metadata, hmetadata, hobj⟩
  unfold liveVersion
  rw [setItem_ok hobj]
  exact setItem_ok hmetadata _

/-- A name that is there is found whatever would be in its place. -/
theorem get_of_nameOf {name : String} {obj : Py} (h : nameOf obj = some name) :
    ∃ metadata, obj.get "metadata" (.dict []) = .ok metadata ∧
      ∀ other, metadata.get "name" other = .ok (.str name) := by
  unfold nameOf at h
  rcases hm : obj.get "metadata" (.dict []) with e | metadata
  · simp only [hm, bind, Except.bind, reduceCtorEq] at h
  · simp only [hm, bind, Except.bind] at h
    refine ⟨metadata, rfl, ?_⟩
    -- Only a dict has fields, and only a text is a name.
    rcases metadata with _ | _ | _ | _ | _ | _ | fields
    case dict =>
      rcases hn : fields.lookup "name" with _ | v
      · simp only [Py.get, hn, Option.getD_none, reduceCtorEq] at h
      · rcases v with _ | _ | _ | _ | v | _ | _
        case str =>
          simp only [Py.get, hn, Option.getD_some, Option.some.injEq] at h
          intro other
          simp only [Py.get, hn, Option.getD_some, h]
        all_goals
          simp only [Py.get, hn, Option.getD_some, reduceCtorEq] at h
    all_goals
      simp only [Py.get, reduceCtorEq] at h

/-- The object of a manifest is called what the manifest says. -/
theorem target_name {P : Python} {base name : String} {obj : Py} {t : Target}
    (ht : target P base obj = .ok t) (hname : nameOf obj = some name) : t.name = name := by
  rcases get_of_nameOf hname with ⟨metadata, hmetadata, hget⟩
  rcases bind_ok ht with ⟨_, _, hafter⟩
  rcases bind_ok hafter with ⟨m, hm, hrest⟩
  rcases bind_ok hrest with ⟨n, hn, hlast⟩
  rcases bind_ok hlast with ⟨_, _, hpure⟩
  rw [hmetadata] at hm
  rw [← Except.ok.inj hm, hget] at hn
  rw [← Except.ok.inj hpure, ← Except.ok.inj hn]
  rfl

/-- A manifest that has a name has a place for a version. -/
theorem setVersion_of_nameOf {obj : Py} {name : String} (hname : nameOf obj = some name) (v : Py) :
    ∃ obj', setVersion obj v = .ok obj' := by
  rcases get_of_nameOf hname with ⟨metadata, hmetadata, hget⟩
  rcases obj with _ | _ | _ | _ | _ | _ | fields
  case dict =>
    rcases metadata with _ | _ | _ | _ | _ | _ | inner
    case dict => exact ⟨_, by simp only [setVersion, hmetadata, bind, Except.bind, Py.setItem]; rfl⟩
    all_goals
      exact absurd (hget .null) (by simp only [Py.get, reduceCtorEq, not_false_eq_true])
  all_goals
    exact absurd hmetadata (by simp only [Py.get, reduceCtorEq, not_false_eq_true])

/-! ## A server in memory -/

/-- Objects by their URLs, with the number of the write they are from. -/
structure Shelf where
  next : Nat
  objects : String → Option (Nat × Py)
  past : ∀ {url n obj}, objects url = some (n, obj) → n < next

namespace Shelf

/-- An object is written, and the write counted. -/
def store (s : Shelf) (url : String) (obj : Py) : Shelf where
  next := s.next + 1
  objects other := if other = url then some (s.next, obj) else s.objects other
  past := by
    intro other n o h
    by_cases hother : other = url
    · rw [if_pos hother] at h
      have hn := (Prod.mk.inj (Option.some.inj h)).1
      omega
    · rw [if_neg hother] at h
      have hn := s.past h
      omega

theorem store_self (s : Shelf) (url : String) (obj : Py) :
    (s.store url obj).objects url = some (s.next, obj) :=
  if_pos rfl

theorem store_other {s : Shelf} {url other : String} {obj : Py} (h : other ≠ url) :
    (s.store url obj).objects other = s.objects other :=
  if_neg h

/-- What is read of an object: its fields and its version. -/
def withVersion (obj : Py) (version : String) : Py :=
  match setVersion obj (.str version) with
  | .ok live => live
  | .error _ => .dict [("metadata", .dict [("resourceVersion", .str version)])]

theorem liveVersion_withVersion (obj : Py) (version : String) :
    liveVersion (withVersion obj version) = .ok (.str version) := by
  unfold withVersion
  rcases h : setVersion obj (.str version) with e | live
  · rfl
  · exact liveVersion_setVersion h

/-- A write to an object on condition of its version. -/
def swap (s : Shelf) (url : String) (obj : Py) (n : Nat) : Shelf × Reply :=
  match liveVersion obj with
  | .ok (.str version) =>
      if version = Nat.repr n then (s.store url obj, .ok obj) else (s, .httpError 409 [])
  | _ => (s, .httpError 422 [])

/-- The answer to a request. -/
def serve (s : Shelf) : Request → Shelf × Reply
  | ⟨.post, coll, some obj⟩ =>
      match nameOf obj with
      | none => (s, .httpError 422 [])
      | some name =>
          if (s.objects (coll ++ "/" ++ name)).isSome then (s, .httpError 409 [])
          else (s.store (coll ++ "/" ++ name) obj, .ok obj)
  | ⟨.get, url, none⟩ =>
      match s.objects url with
      | none => (s, .httpError 404 [])
      | some (n, obj) => (s, .ok (withVersion obj (Nat.repr n)))
  | ⟨.put, url, some obj⟩ =>
      match s.objects url with
      | none => (s, .httpError 404 [])
      | some (n, _) => s.swap url obj n
  | _ => (s, .httpError 405 [])

/-- The fields of an object but for its metadata. -/
def content : Py → List (String × Py)
  | .dict fields => fields.filter fun field => field.1 ≠ "metadata"
  | _ => []

theorem content_setVersion {obj v obj' : Py} (h : setVersion obj v = .ok obj') :
    content obj' = content obj := by
  -- Setting the metadata touches no other field, by induction on the fields.
  have hfilter : ∀ (x : Py) (fields : List (String × Py)),
      (Py.setField "metadata" x fields).filter (fun field => field.1 ≠ "metadata") =
        fields.filter fun field => field.1 ≠ "metadata" := by
    intro x fields
    induction fields with
    | nil => rfl
    | cons field fields ih =>
        rcases field with ⟨k, y⟩
        unfold Py.setField
        by_cases hk : k = "metadata"
        · rw [if_pos hk, List.filter_cons_of_neg (by simp only [ne_eq, not_true_eq_false,
            decide_false, Bool.false_eq_true, not_false_eq_true]),
            List.filter_cons_of_neg (by simp only [hk, ne_eq, not_true_eq_false, decide_false,
              Bool.false_eq_true, not_false_eq_true])]
        · rw [if_neg hk, List.filter_cons_of_pos (by simpa only [decide_eq_true_eq] using hk),
            List.filter_cons_of_pos (by simpa only [decide_eq_true_eq] using hk), ih]
  rcases bind_ok h with ⟨_, _, hrest⟩
  rcases bind_ok hrest with ⟨metadata, _, hobj⟩
  rcases obj with _ | _ | _ | _ | _ | _ | fields
  case dict =>
    simp only [Py.setItem, Except.ok.injEq] at hobj
    rw [← hobj]
    exact hfilter metadata fields
  all_goals
    simp only [Py.setItem, reduceCtorEq] at hobj

/-- The server, with others that leave some objects alone and may ask anything
    else. -/
def api (kept : String → Prop) : Api Shelf (List (String × Py)) where
  serves s q r s' := s.serve q = (s', r)
  others s s' := (∃ q, s' = (s.serve q).1) ∧ ∀ url, kept url → s'.objects url = s.objects url
  versions :=
    { live := fun s url => (s.objects url).map fun x => (Nat.repr x.1, content x.2)
      used := fun s w => ∃ n < s.next, w = Nat.repr n }
  settles _ obj := content obj

/-- A request leaves the server as it is, or writes an object. -/
theorem serve_cases (s : Shelf) (q : Request) :
    (s.serve q).1 = s ∨ ∃ url obj, (s.serve q).1 = s.store url obj := by
  -- Only a request with a body that names its object can write.
  rcases q with ⟨_ | _ | _, url, _ | obj⟩
  case get.none =>
    rcases h : s.objects url with _ | ⟨n, o⟩
    all_goals
      simp only [serve, h, true_or]
  case post.some =>
    rcases hname : nameOf obj with _ | name
    · simp only [serve, hname, true_or]
    · by_cases h : (s.objects (url ++ "/" ++ name)).isSome
      · simp only [serve, hname, if_pos h, true_or]
      · exact Or.inr ⟨_, _, by simp only [serve, hname, if_neg h]; rfl⟩
  case put.some =>
    rcases h : s.objects url with _ | ⟨n, o⟩
    · simp only [serve, h, true_or]
    · simp only [serve, h]
      unfold swap
      split
      · split_ifs
        · exact Or.inr ⟨_, _, rfl⟩
        · exact Or.inl rfl
      · exact Or.inl rfl
  all_goals
    exact Or.inl rfl

theorem repr_inj {m n : Nat} (h : Nat.repr m = Nat.repr n) : m = n := by
  have hdigits : Nat.toDigits 10 m = Nat.toDigits 10 n := String.ofList_injective h
  rw [← Nat.ofDigitChars_ten_toDigits (n := m), hdigits, Nat.ofDigitChars_ten_toDigits]

section Lawful

variable {kept : String → Prop} {s s' : Shelf} {url w : String} {o : List (String × Py)}

theorem live_eq (kept : String → Prop) (s : Shelf) (url : String) :
    (api kept).versions.live s url = (s.objects url).map fun x => (Nat.repr x.1, content x.2) :=
  rfl

theorem live_cases (h : (api kept).versions.live s url = some (w, o)) :
    ∃ n obj, s.objects url = some (n, obj) ∧ w = Nat.repr n ∧ o = content obj := by
  rw [live_eq] at h
  rcases Option.map_eq_some_iff.mp h with ⟨⟨n, obj⟩, hobject, heq⟩
  rcases Prod.mk.inj heq with ⟨rfl, rfl⟩
  exact ⟨n, obj, hobject, rfl, rfl⟩

/-- A write remembers the versions, and gives out a new one. -/
theorem write_lawful (kept : String → Prop) (h : s' = s ∨ ∃ url obj, s' = s.store url obj) :
    (∀ {w}, (api kept).versions.used s w → (api kept).versions.used s' w) ∧
      ∀ {url w o}, (api kept).versions.live s' url = some (w, o) →
        (api kept).versions.live s url = some (w, o) ∨ ¬ (api kept).versions.used s w := by
  rcases h with rfl | ⟨url', obj, rfl⟩
  · exact ⟨fun h => h, fun h => Or.inl h⟩
  · refine ⟨?_, ?_⟩
    · rintro w ⟨n, hn, rfl⟩
      exact ⟨n, Nat.lt_succ_of_lt hn, rfl⟩
    · intro url w o hlive
      by_cases hurl : url = url'
      · -- What was written has the next version, which nobody was given.
        rcases live_cases hlive with ⟨n, obj', hobject, rfl, _⟩
        rw [hurl, store_self] at hobject
        rcases Prod.mk.inj (Option.some.inj hobject) with ⟨rfl, _⟩
        refine Or.inr ?_
        rintro ⟨n, hn, hrepr⟩
        have heq := repr_inj hrepr
        omega
      · rw [live_eq, store_other hurl] at hlive
        exact Or.inl hlive

/-- Storing an object is taking it. -/
theorem takes_store (s : Shelf) (url : String) (obj : Py) :
    (api kept).Takes s url obj (s.store url obj) := by
  refine ⟨⟨Nat.repr s.next, ?_⟩, ?_⟩
  · rw [live_eq, store_self]
    rfl
  · intro other hother
    rw [live_eq, live_eq, store_other hother]

theorem decides_refused {obj : Py} {cond : Prop} (s : Shelf) (url : String) (code : Nat) :
    (api kept).Decides s url obj cond (.httpError code []) s :=
  Or.inl ⟨fun _ => rfl, fun _ => by simp only [ne_eq, reduceCtorEq, not_false_eq_true]⟩

theorem decides_stored {obj body : Py} {cond : Prop} (h : cond) (s : Shelf) (url : String) :
    (api kept).Decides s url obj cond (.ok body) (s.store url obj) :=
  Or.inr ⟨h, takes_store s url obj, fun _ _ hr => absurd hr (by simp only [reduceCtorEq,
    not_false_eq_true])⟩

theorem api_lawful (kept : String → Prop) : (api kept).Lawful where
  versions :=
    { remembered := fun {s s' l w} hstep => by
        rcases l with _ | ⟨q, r⟩
        · rcases hstep.1 with ⟨q, rfl⟩
          exact (write_lawful kept (serve_cases s q)).1
        · have hs : s' = (s.serve q).1 := (congrArg Prod.fst hstep).symm
          rw [hs]
          exact (write_lawful kept (serve_cases s q)).1
      fresh := fun {s s' l url w o} hstep => by
        rcases l with _ | ⟨q, r⟩
        · rcases hstep.1 with ⟨q, rfl⟩
          exact (write_lawful kept (serve_cases s q)).2
        · have hs : s' = (s.serve q).1 := (congrArg Prod.fst hstep).symm
          rw [hs]
          exact (write_lawful kept (serve_cases s q)).2 }
  given {s url w o} h := by
    rcases live_cases h with ⟨n, obj, hobject, hw, _⟩
    exact ⟨n, s.past hobject, hw⟩
  post {s coll obj name r s'} hserve hname := by
    -- A name that is taken is refused.
    have hserve' : s.serve ⟨.post, coll, some obj⟩ = (s', r) := hserve
    simp only [serve, hname] at hserve'
    split_ifs at hserve' with hthere
    · rcases Prod.mk.inj hserve' with ⟨rfl, rfl⟩
      exact decides_refused _ _ _
    · rcases Prod.mk.inj hserve' with ⟨rfl, rfl⟩
      refine decides_stored ?_ _ _
      rw [live_eq, Option.map_eq_none_iff]
      exact Option.not_isSome_iff_eq_none.mp hthere
  get {s url r s'} hserve := by
    have hserve' : s.serve ⟨.get, url, none⟩ = (s', r) := hserve
    have hs : s' = s := by
      rcases hobject : s.objects url with _ | ⟨n, obj⟩
      all_goals
        simp only [serve, hobject, Prod.mk.injEq] at hserve'
        exact hserve'.1.symm
    rw [hs]
    exact fun _ => rfl
  read {s url body s'} hserve := by
    have hserve' : s.serve ⟨.get, url, none⟩ = (s', .ok body) := hserve
    rcases hobject : s.objects url with _ | ⟨n, obj⟩
    · simp only [serve, hobject, Prod.mk.injEq, reduceCtorEq, and_false] at hserve'
    · simp only [serve, hobject, Prod.mk.injEq, Reply.ok.injEq] at hserve'
      refine ⟨Nat.repr n, content obj, ?_, ?_⟩
      · rw [live_eq, hobject]
        rfl
      · rw [← hserve'.2]
        exact liveVersion_withVersion _ _
  put {s url obj w r s'} hserve hversion := by
    -- And so is any version but the one that is there.
    have hserve' : s.serve ⟨.put, url, some obj⟩ = (s', r) := hserve
    rcases hobject : s.objects url with _ | ⟨n, o⟩
    · simp only [serve, hobject] at hserve'
      rcases Prod.mk.inj hserve' with ⟨rfl, rfl⟩
      exact decides_refused _ _ _
    · simp only [serve, hobject, swap, hversion] at hserve'
      split_ifs at hserve' with hsame
      · rcases Prod.mk.inj hserve' with ⟨rfl, rfl⟩
        refine decides_stored ⟨content o, ?_⟩ _ _
        rw [live_eq, hobject, hsame]
        rfl
      · rcases Prod.mk.inj hserve' with ⟨rfl, rfl⟩
        exact decides_refused _ _ _
  settles h := content_setVersion h

end Lawful

end Shelf

end Zeroboot.Manifests
