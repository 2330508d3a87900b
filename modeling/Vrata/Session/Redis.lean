import Mathlib.Data.Set.Defs
import Vrata.Lib.Expiring
import Vrata.Lib.Text

/-!
# The session store

Reference: `server/internal/session/redis/redis.go`, and the calls of the store in `pickStickyPool` of
`server/internal/proxy/handler.go` and in `pickStickyEndpoint` of `pool.go`.

Two kinds of pins share the store. A route keeps under the session of a client the destination that
serves it, and a destination keeps the endpoint. The session is what the client sends in a cookie, so that
it can hold any characters a cookie can hold.

`independent_iff` says for which routes and destinations no pin can overwrite another one, whatever the
sessions are.
-/

namespace Vrata.Session

open Expiring

/-! ## Redis -/

/-- The database; reading a key that is not there gives the empty text. -/
abbrev Store := Map String String

def key (sid routeID : String) : String := "vrata:sticky:" ++ sid ++ ":" ++ routeID

/-- `Get`, at an instant in nanoseconds. -/
def Store.get (s : Store) (sid routeID : String) (now : ℤ) : String :=
  (read s (key sid routeID) now).getD ""

/-- `Set`. -/
def Store.set (s : Store) (sid routeID value : String) (ttlSeconds now : ℤ) : Store :=
  write s (key sid routeID) ⟨value, expiry now ttlSeconds⟩

/-! ## Pins -/

/-- The characters of a cookie that `net/http` accepts. -/
def isCookieChar (c : Char) : Bool :=
  0x20 ≤ c.toNat && c.toNat < 0x7F && c != '"' && c != ';' && c != '\\'

/-- A session that a client can send. One that is empty is replaced by a new one. -/
structure IsSession (sid : String) : Prop where
  nonempty : sid ≠ ""
  chars : sid.toList.all isCookieChar = true

/-- What keeps a pin. -/
inductive Owner where
  | route (id : String)
  | destination (id : String)
deriving DecidableEq, Repr

structure Pin where
  session : String
  owner : Owner
deriving DecidableEq, Repr

namespace Pin

/-- The arguments with which the store is called for the pin. -/
def args (p : Pin) : String × String :=
  match p.owner with
  | .route id => (p.session, id)
  | .destination id => (p.session ++ ":" ++ id, "ep")

def get (p : Pin) (s : Store) (now : ℤ) : String := s.get p.args.1 p.args.2 now

def set (p : Pin) (s : Store) (value : String) (ttlSeconds now : ℤ) : Store :=
  s.set p.args.1 p.args.2 value ttlSeconds now

/-- Storing the one pin never changes what is read for the other one. -/
def Independent (p q : Pin) : Prop :=
  ∀ (s : Store) (value : String) (ttlSeconds now now' : ℤ),
    q.get (p.set s value ttlSeconds now) now' = q.get s now'

end Pin

/-- What follows the session in the key. -/
def Owner.scope : Owner → String
  | .route id => id
  | .destination id => id ++ ":ep"

/-- No owner's part of the key is that of another one, or ends with it after a colon and characters
that a session can hold. -/
def Separate (owners : Set Owner) : Prop :=
  ∀ a ∈ owners, ∀ b ∈ owners, a ≠ b →
    a.scope ≠ b.scope ∧
      ∀ t : String, t.toList.all isCookieChar = true → a.scope ≠ t ++ ":" ++ b.scope

/-! ## Keys -/

/-- Two texts that are equal are divided alike by a separator, or one part of the first is longer. -/
theorem append_cons_eq_iff {α : Type} {c : α} {s s' a b : List α} :
    s ++ c :: a = s' ++ c :: b ↔
      s = s' ∧ a = b ∨ (∃ t, s' = s ++ c :: t ∧ a = t ++ c :: b) ∨
        ∃ t, s = s' ++ c :: t ∧ b = t ++ c :: a := by
  constructor
  · intro h
    rcases List.append_eq_append_iff.mp h with ⟨more, hs, ha⟩ | ⟨more, hs, hb⟩
    · cases more with
      | nil => exact .inl ⟨by simpa using hs.symm, by simpa using ha⟩
      | cons d t =>
        obtain ⟨rfl, htail⟩ := List.cons.inj ha
        exact .inr (.inl ⟨t, hs, htail⟩)
    · cases more with
      | nil => exact .inl ⟨by simpa using hs, by simpa using hb.symm⟩
      | cons d t =>
        obtain ⟨rfl, htail⟩ := List.cons.inj hb
        exact .inr (.inr ⟨t, hs, htail⟩)
  · rintro (⟨rfl, rfl⟩ | ⟨t, rfl, rfl⟩ | ⟨t, rfl, rfl⟩)
    · rfl
    · simp
    · simp

namespace Pin

/-- The key under which the pin is kept. -/
def key (p : Pin) : String := Session.key p.args.1 p.args.2

theorem toList_key (p : Pin) :
    p.key.toList = "vrata:sticky:".toList ++ (p.session.toList ++ ':' :: p.owner.scope.toList) := by
  rcases p with ⟨sid, id | id⟩ <;>
    simp [key, Session.key, args, Owner.scope, String.toList_append]

theorem key_eq_iff {p q : Pin} :
    p.key = q.key ↔ p.session.toList ++ ':' :: p.owner.scope.toList =
      q.session.toList ++ ':' :: q.owner.scope.toList := by
  rw [← String.toList_inj, toList_key, toList_key, List.append_cancel_left_eq]

theorem independent_iff_key_ne {p q : Pin} : p.Independent q ↔ p.key ≠ q.key := by
  constructor
  · intro h heq
    have hread : (read (write (fun _ => none) p.key ⟨"1", none⟩) q.key 0).getD "" = "" :=
      h (fun _ => none) "1" 0 0 0
    rw [← heq, read_of_live (write_self _ _ _) rfl] at hread
    exact absurd hread (by decide)
  · intro hne s value ttlSeconds now now'
    exact congrArg (Option.getD · "") (read_write_of_ne _ now' (Ne.symm hne))

end Pin

/-! ## Independence -/

theorem scope_ne_of_suffix (a : Owner) (t : String) : a.scope ≠ t ++ ":" ++ a.scope := by
  intro h
  have hlen := congrArg (fun s => s.toList.length) h
  simp [String.toList_append] at hlen
  omega

section Separate

variable {owners : Set Owner} {p q : Pin}

/-- If the session of one pin continues that of the other, the scope of the other ends with its scope. -/
theorem key_ne_of_longer (hsep : Separate owners) (hp : p.owner ∈ owners) (hq : q.owner ∈ owners)
    (hsession : IsSession q.session) {t : List Char}
    (hsid : q.session.toList = p.session.toList ++ ':' :: t) :
    p.owner.scope.toList ≠ t ++ ':' :: q.owner.scope.toList := by
  intro hscope
  have hchars : (String.ofList t).toList.all isCookieChar = true := by
    have hall := hsession.chars
    rw [hsid, List.all_append, List.all_cons, Bool.and_eq_true, Bool.and_eq_true] at hall
    rw [String.toList_ofList]
    exact hall.2.2
  have heq : p.owner.scope = String.ofList t ++ ":" ++ q.owner.scope := by
    rw [← String.toList_inj, hscope]
    simp [String.toList_append]
  by_cases hsame : p.owner = q.owner
  · rw [hsame] at heq
    exact scope_ne_of_suffix _ _ heq
  · exact (hsep _ hp _ hq hsame).2 _ hchars heq

theorem key_ne_of_separate (hsep : Separate owners) (hp : p.owner ∈ owners) (hq : q.owner ∈ owners)
    (hps : IsSession p.session) (hqs : IsSession q.session) (hne : p ≠ q) : p.key ≠ q.key := by
  rw [Ne, Pin.key_eq_iff, append_cons_eq_iff]
  rintro (⟨hsid, hscope⟩ | ⟨t, hsid, hscope⟩ | ⟨t, hsid, hscope⟩)
  · rw [String.toList_inj] at hsid hscope
    have howner : p.owner ≠ q.owner := by
      intro h
      cases p
      cases q
      exact hne (by simp_all)
    exact (hsep _ hp _ hq howner).1 hscope
  · exact key_ne_of_longer hsep hp hq hqs hsid hscope
  · exact key_ne_of_longer hsep hq hp hps hsid hscope

end Separate

theorem isSession_zero : IsSession "0" := ⟨by decide, by decide⟩

theorem isSession_continued {t : String} (ht : t.toList.all isCookieChar = true) :
    IsSession ("0" ++ ":" ++ t) := by
  constructor
  · intro h
    have hlen := congrArg (fun s => s.toList.length) h
    simp [String.toList_append] at hlen
  · rw [String.toList_append, List.all_append, ht]
    decide

/-- No pin overwrites another one, whatever sessions the clients send, exactly if the parts of the key
that the routes and destinations contribute are separate. -/
theorem independent_iff (owners : Set Owner) :
    (∀ p q : Pin, p.owner ∈ owners → q.owner ∈ owners → IsSession p.session → IsSession q.session →
      p ≠ q → p.Independent q) ↔ Separate owners := by
  constructor
  · intro h a ha b hb hab
    constructor
    · intro hscope
      refine Pin.independent_iff_key_ne.mp
        (h ⟨"0", a⟩ ⟨"0", b⟩ ha hb isSession_zero isSession_zero (by simpa using hab)) ?_
      rw [Pin.key_eq_iff, hscope]
    · intro t ht hscope
      refine Pin.independent_iff_key_ne.mp
        (h ⟨"0", a⟩ ⟨"0" ++ ":" ++ t, b⟩ ha hb isSession_zero (isSession_continued ht)
          (by simp [hab])) ?_
      rw [Pin.key_eq_iff, hscope]
      simp [String.toList_append]
  · intro hsep p q hp hq hps hqs hne
    exact Pin.independent_iff_key_ne.mpr (key_ne_of_separate hsep hp hq hps hqs hne)

/-- With the routes `a:b` and `b`, a client overwrites the pin of another one with the cookie `x:a`. -/
theorem not_independent_colon :
    IsSession "x" ∧ IsSession "x:a" ∧
      ¬Pin.Independent ⟨"x:a", .route "b"⟩ ⟨"x", .route "a:b"⟩ := by
  refine ⟨⟨by decide, by decide⟩, ⟨by decide, by decide⟩, fun h => ?_⟩
  exact Pin.independent_iff_key_ne.mp h rfl

end Vrata.Session
