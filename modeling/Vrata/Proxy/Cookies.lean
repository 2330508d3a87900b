import Vrata.Lib.Expiring
import Vrata.Proxy.Router

/-!
# Cookies

Reference: `http.SetCookie` and `Request.Cookie` of `net/http`.

A client keeps the cookies of the responses it gets, one for each name, and sends them back until they
expire. Path, domain and the other attributes are left out: the proxy sets its cookies for all paths.
-/

namespace Vrata.Proxy

open Expiring

structure SetCookie where
  name : String
  value : String
  /-- In seconds. A negative age removes the cookie, and zero stands for no age. -/
  maxAge : ℤ
deriving DecidableEq, Repr

def isToken (s : String) : Bool := s ≠ "" && s.toList.all isTokenChar

/-- `http.SetCookie`. A cookie whose name is not a token is left out of the response. -/
def setCookie (c : SetCookie) : List SetCookie := if isToken c.name then [c] else []

/-- The cookies a client keeps. -/
abbrev Jar := Map String String

namespace Jar

def receive (now : ℤ) (jar : Jar) (c : SetCookie) : Jar :=
  Function.update jar c.name (if c.maxAge < 0 then none else some ⟨c.value, expiry now c.maxAge⟩)

def receiveAll (now : ℤ) (jar : Jar) (cs : List SetCookie) : Jar := cs.foldl (receive now) jar

/-- What `Request.Cookie` finds; the empty text for a cookie that is not sent. -/
def cookie (jar : Jar) (name : String) (now : ℤ) : String := (read jar name now).getD ""

theorem cookie_of_none {jar : Jar} {name : String} (h : jar name = none) (now : ℤ) :
    jar.cookie name now = "" := by
  rw [cookie, Expiring.read, h]
  rfl

theorem receiveAll_append (now : ℤ) (jar : Jar) (cs cs' : List SetCookie) :
    receiveAll now jar (cs ++ cs') = receiveAll now (receiveAll now jar cs) cs' :=
  List.foldl_append

/-- What becomes of a cookie does not depend on the others. -/
theorem receiveAll_congr {now : ℤ} {jar jar' : Jar} {name : String} (h : jar name = jar' name)
    (cs : List SetCookie) : receiveAll now jar cs name = receiveAll now jar' cs name := by
  induction cs generalizing jar jar' with
  | nil => exact h
  | cons c cs ih =>
    refine ih ?_
    rw [receive, receive, Function.update_apply, Function.update_apply, h]

/-- Cookies of other names leave a cookie alone. -/
theorem receiveAll_of_ne {now : ℤ} {jar : Jar} {cs : List SetCookie} {name : String}
    (h : ∀ c ∈ cs, c.name ≠ name) : receiveAll now jar cs name = jar name := by
  induction cs generalizing jar with
  | nil => rfl
  | cons c cs ih =>
    rw [receiveAll, List.foldl_cons]
    refine (ih fun c' hc' => h c' (List.mem_cons_of_mem c hc')).trans ?_
    exact Function.update_of_ne (h c List.mem_cons_self).symm _ jar

/-- The cookies of the others, before and after, leave it alone. -/
theorem receiveAll_among {now : ℤ} {jar : Jar} {before cs after : List SetCookie} {name : String}
    (h : ∀ c ∈ before ++ after, c.name ≠ name) :
    receiveAll now jar (before ++ cs ++ after) name = receiveAll now jar cs name := by
  rw [receiveAll_append, receiveAll_of_ne fun c hc => h c (List.mem_append_right before hc),
    receiveAll_append]
  exact receiveAll_congr (receiveAll_of_ne fun c hc => h c (List.mem_append_left after hc)) cs

end Jar

end Vrata.Proxy
