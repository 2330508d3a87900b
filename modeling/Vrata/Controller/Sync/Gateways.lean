import Vrata.Controller.Sync.Cycles

/-!
# Synchronising the listeners of Gateways

Reference: `clients/controller/cmd/controller/main.go` (`syncAllGateways`) and `MapGateway` of
`clients/controller/internal/mapper/mapper.go`.

Without failures `syncAllGateways` creates the listeners whose names are missing and deletes the owned
ones whose names no Gateway asks for. A listener whose name is there is taken as it is: when the port
of a Gateway's listener is edited, Vrata keeps the old one. `listenersConverged_iff` says from which
states the listeners come out as the Gateways describe them.
-/

namespace Vrata.Controller

/-- A listener apart from its ID. -/
def Listener.content (l : Listener) : Listener := { l with id := "" }

/-- The owned listeners are those the Gateways describe, each once. -/
def ListenersConverged (gateways : List Gateway) (v : ControlPlane) : Prop :=
  (((v.rows .listeners).filter fun l => isOwned l.name).map Listener.content).Perm
    (gateways.flatMap mapGateway)

/-- A stored listener with the name of a described one is like it, and is the only one. -/
def ListenersFit (gateways : List Gateway) (v : ControlPlane) : Prop :=
  ∀ l ∈ gateways.flatMap mapGateway, AtMostOne .listeners l.name v ∧
    ∀ y ∈ v.rows .listeners, y.name = l.name → y.content = l

section Fine

variable {b : Backend} {w : World}

/-! ## Calls that succeed -/

theorem World.Fine.sent (hfine : w.Fine) (q : Request) (v : ControlPlane) : (w.sent q v).Fine :=
  fun o ho => hfine o (List.mem_of_mem_tail ho)

/-- A request that is served is answered. -/
theorem call_of_fine (hfine : w.Fine) {q : Request} {a : q.Reply} {v : ControlPlane}
    (hserve : serve b q w.vrata = .ok (a, v)) : call b q w = .ok a (w.sent q v) := by
  have hok : w.plan.headD .ok = .ok := hfine.outcome
  unfold call World.sent World.outcome
  simp only [hok, hserve]

theorem attempt_findByName (hfine : w.Fine) (n : String) :
    w.attempt (findByName b .listeners n) =
      (.ok (((b.listing .listeners (w.vrata.rows .listeners)).find? fun l => l.name = n).map
        Listener.id), w.sent (.list .listeners) w.vrata) := by
  have hcall := call_of_fine (b := b) hfine (q := .list .listeners) (a := _) (v := w.vrata) rfl
  unfold World.attempt findByName
  simp only [bind, EStateM.bind, hcall]
  rfl

/-! ## Creating -/

/-- A listener is created unless one of its name is there. -/
theorem syncListener_of_fine (hfine : w.Fine) {l : Listener} (hid : l.id = "") :
    (syncListener b w l).Fine ∧ ∃ i, (syncListener b w l).vrata.rows .listeners =
      if l.name ∈ (w.vrata.rows .listeners).map Listener.name then w.vrata.rows .listeners
      else w.vrata.rows .listeners ++ [{ l with id := i }] := by
  unfold syncListener
  rw [attempt_findByName hfine]
  cases hfind : (b.listing .listeners (w.vrata.rows .listeners)).find? fun y => y.name = l.name with
  | some y =>
    have hname : y.name = l.name := by simpa using List.find?_some hfind
    have hy : y ∈ w.vrata.rows .listeners := mem_listing.mp (List.mem_of_find?_eq_some hfind)
    refine ⟨hfine.sent _ _, "", ?_⟩
    rw [if_pos (hname ▸ List.mem_map_of_mem hy)]
    rfl
  | none =>
    have hnew : l.name ∉ (w.vrata.rows .listeners).map Listener.name := by
      intro hmem
      obtain ⟨y, hy, hname⟩ := List.mem_map.mp hmem
      exact absurd (List.find?_eq_none.mp hfind y (mem_listing.mpr hy)) (by simp [hname])
    have hserve : serve b (.create .listeners l) w.vrata =
        .ok ({ l with id := b.next w.vrata.issued },
          w.vrata.save .listeners { l with id := b.next w.vrata.issued }) := by
      have hid' : Resource.listeners.id l = "" := hid
      simp only [serve]
      rw [if_pos hid']
      rfl
    have hsent : (w.sent (.list .listeners) w.vrata).Fine := hfine.sent _ _
    have hcall := call_of_fine (b := b) hsent hserve
    simp only [Option.map_none, World.attempt, createListener, hcall]
    refine ⟨hsent.sent _ _, b.next w.vrata.issued, ?_⟩
    rw [if_neg hnew]
    exact ControlPlane.rows_save_of_fresh (b.fresh w.vrata.issued)

/-- The listeners whose names are missing are created. -/
theorem foldl_syncListener_of_fine (hfine : w.Fine) {ls : List Listener} (hid : ∀ l ∈ ls, l.id = "")
    (hnames : (ls.map Listener.name).Nodup) :
    (ls.foldl (syncListener b) w).Fine ∧ ∃ news,
      (ls.foldl (syncListener b) w).vrata.rows .listeners = w.vrata.rows .listeners ++ news ∧
      news.map Listener.content =
        ls.filter fun l => l.name ∉ (w.vrata.rows .listeners).map Listener.name := by
  induction ls generalizing w with
  | nil => exact ⟨hfine, [], (List.append_nil _).symm, rfl⟩
  | cons l ls ih =>
    obtain ⟨hl, hls⟩ := List.forall_mem_cons.mp hid
    rw [List.map_cons, List.nodup_cons] at hnames
    obtain ⟨hfine', i, hrows⟩ := syncListener_of_fine (b := b) hfine hl
    obtain ⟨hdone, news, hnews, hcontent⟩ := ih hfine' hls hnames.2
    refine ⟨hdone, ?_⟩
    rw [List.foldl_cons, hnews]
    by_cases hmem : l.name ∈ (w.vrata.rows .listeners).map Listener.name
    · rw [if_pos hmem] at hrows
      rw [hrows] at hcontent ⊢
      refine ⟨news, rfl, ?_⟩
      rw [hcontent, List.filter_cons_of_neg (by simpa using hmem)]
    · rw [if_neg hmem] at hrows
      rw [hrows] at hcontent ⊢
      refine ⟨{ l with id := i } :: news, by simp, ?_⟩
      have hcleared : Listener.content { l with id := i } = l := by
        rw [Listener.content]
        exact hl ▸ rfl
      rw [List.map_cons, hcleared, hcontent, List.filter_cons_of_pos (by simpa using hmem)]
      -- the other names of the list differ from the one just created
      refine congrArg (l :: ·) (List.filter_congr fun l' hl' => ?_)
      have hne : l'.name ≠ l.name := fun h => hnames.1 (h ▸ List.mem_map_of_mem hl')
      simp [hne]

/-! ## Deleting -/

/-- One owned listener of an unwanted name is deleted. -/
theorem collectListener_of_fine (hfine : w.Fine) {desired : List String} {n : String}
    (hn : n ∉ desired) {y : Listener} (hy : y ∈ w.vrata.rows .listeners) (hname : y.name = n) :
    (collectListener b desired w n).Fine ∧ ∃ z ∈ w.vrata.rows .listeners, z.name = n ∧
      (collectListener b desired w n).vrata.rows .listeners =
        (w.vrata.rows .listeners).filter fun x => x.id ≠ z.id := by
  unfold collectListener
  rw [if_neg (by simpa using hn)]
  have hlist := call_of_fine (b := b) hfine (q := .list .listeners) (a := _) (v := w.vrata) rfl
  cases hfind : (b.listing .listeners (w.vrata.rows .listeners)).find? fun x => x.name = n with
  | none => exact absurd (List.find?_eq_none.mp hfind y (mem_listing.mpr hy)) (by simp [hname])
  | some z =>
    have hz : z ∈ w.vrata.rows .listeners := mem_listing.mp (List.mem_of_find?_eq_some hfind)
    have hzname : z.name = n := by simpa using List.find?_some hfind
    have hserve : serve b (.delete .listeners z.id) w.vrata =
        .ok ((), w.vrata.erase .listeners z.id) := by
      have hmem : z.id ∈ (w.vrata.rows .listeners).map Resource.listeners.id :=
        List.mem_map_of_mem hz
      simp only [serve]
      rw [if_pos hmem]
    have hsent : (w.sent (.list .listeners) w.vrata).Fine := hfine.sent _ _
    have hdelete := call_of_fine (b := b) hsent hserve
    have hrun : w.attempt (deleteListenerByName b n) = (.ok 1,
        (w.sent (.list .listeners) w.vrata).sent (.delete .listeners z.id)
          (w.vrata.erase .listeners z.id)) := by
      simp only [World.attempt, deleteListenerByName, listListeners, deleteListener, bind,
        EStateM.bind, during, hlist, hfind, hdelete, pure, EStateM.pure]
    rw [hrun]
    exact ⟨hsent.sent _ _, z, hz, hzname, w.vrata.rows_erase _ _⟩

/-- Dropping the listener of an ID drops one listener. -/
theorem countP_drop_listener (v : ControlPlane) {z : Listener} (hz : z ∈ v.rows .listeners)
    (n : String) :
    ((v.rows .listeners).countP fun l => l.name = n) =
      (((v.rows .listeners).filter fun x => x.id ≠ z.id).countP fun l => l.name = n) +
        if z.name = n then 1 else 0 := by
  have hnodup : (v.rows .listeners).Nodup := (v.table .listeners).nodup.of_map _
  have herase : ((v.rows .listeners).filter fun x => x.id ≠ z.id) = (v.rows .listeners).erase z := by
    rw [hnodup.erase_eq_filter]
    refine List.filter_congr fun x hx => ?_
    have hid : x.id = z.id ↔ x = z := ⟨fun h => v.eq_of_id_eq hx hz h, fun h => h ▸ rfl⟩
    by_cases heq : x = z <;> simp [hid, heq]
  rw [herase, (List.perm_cons_erase hz).countP_eq, List.countP_cons]
  simp only [decide_eq_true_eq]

/-- If the owned names of unwanted listeners are given, each as often as it occurs, then all unwanted
listeners are deleted. -/
theorem foldl_collectListener_of_fine (hfine : w.Fine) {desired names : List String}
    (howned : ∀ n ∈ names, isOwned n = true)
    (hcount : ∀ n, isOwned n = true → n ∉ desired →
      names.count n = (w.vrata.rows .listeners).countP fun l => l.name = n) :
    (names.foldl (collectListener b desired) w).vrata.rows .listeners =
      (w.vrata.rows .listeners).filter fun l => !isOwned l.name || l.name ∈ desired := by
  induction names generalizing w with
  | nil =>
    refine (List.filter_eq_self.mpr fun l hl => ?_).symm
    by_contra hunwanted
    simp only [Bool.or_eq_true, Bool.not_eq_true', decide_eq_true_eq, not_or] at hunwanted
    have hzero := hcount l.name (by simpa using hunwanted.1) hunwanted.2
    exact absurd (List.countP_eq_zero.mp hzero.symm l hl) (by simp)
  | cons n names ih =>
    obtain ⟨hn, hnames⟩ := List.forall_mem_cons.mp howned
    rw [List.foldl_cons]
    by_cases hdesired : n ∈ desired
    · have hsame : collectListener b desired w n = w := by
        rw [collectListener, if_pos (by simpa using hdesired)]
      rw [hsame]
      refine ih hfine hnames fun n' hown hnot => ?_
      have hne : n ≠ n' := fun h => hnot (h ▸ hdesired)
      rw [← hcount n' hown hnot, List.count_cons_of_ne hne]
    · have hpos : 0 < (w.vrata.rows .listeners).countP fun l => l.name = n := by
        rw [← hcount n hn hdesired, List.count_cons_self]
        omega
      obtain ⟨y, hy, hname⟩ := List.countP_pos_iff.mp hpos
      obtain ⟨hfine', z, hz, hzname, hrows⟩ :=
        collectListener_of_fine (b := b) hfine hdesired hy (by simpa using hname)
      rw [ih hfine' hnames fun n' hown hnot => ?_, hrows, List.filter_filter]
      · -- the deleted listener is not among those that stay
        refine List.filter_congr fun l hl => ?_
        by_cases hid : l.id = z.id
        · have heq : l = z := w.vrata.eq_of_id_eq hl hz hid
          simp [heq, hzname, hn, hdesired]
        · simp [hid]
      · have hdrop := countP_drop_listener w.vrata hz n'
        have hall := hcount n' hown hnot
        rw [hzname] at hdrop
        rw [List.count_cons, hdrop] at hall
        rw [hrows]
        simp only [beq_iff_eq] at hall
        omega

theorem attempt_ownedListenerNames (hfine : w.Fine) :
    w.attempt (ownedListenerNames b) =
      (.ok (((b.listing .listeners (w.vrata.rows .listeners)).map Listener.name).filter isOwned),
        w.sent (.list .listeners) w.vrata) := by
  have hcall := call_of_fine (b := b) hfine (q := .list .listeners) (a := _) (v := w.vrata) rfl
  unfold World.attempt ownedListenerNames ownedNames during
  simp only [bind, EStateM.bind, hcall]
  rfl

/-! ## Convergence -/

theorem mem_mapGateways {gateways : List Gateway} {l : Listener}
    (h : l ∈ gateways.flatMap mapGateway) : l.id = "" ∧ isOwned l.name = true := by
  obtain ⟨g, _, hl⟩ := List.mem_flatMap.mp h
  obtain ⟨gl, _, rfl⟩ := List.mem_map.mp hl
  refine ⟨rfl, ?_⟩
  show isOwned ("k8s:" ++ g.namespace ++ "/" ++ g.name ++ "/" ++ gl.name) = true
  rw [String.append_assoc, String.append_assoc, String.append_assoc, String.append_assoc]
  exact isOwned_append _

/-- The owned listeners in the end: those of described names, and the created ones. -/
theorem owned_syncAllGateways (hfine : w.Fine) {cfg : Config} {t : Tick} {gateways : List Gateway}
    (hlist : t.listGateways cfg = some gateways)
    (hnames : ((gateways.flatMap mapGateway).map Listener.name).Nodup) :
    ∃ news, ((syncAllGateways b cfg t w).vrata.rows .listeners).filter (fun l => isOwned l.name) =
        ((w.vrata.rows .listeners).filter fun l =>
          l.name ∈ (gateways.flatMap mapGateway).map Listener.name) ++ news ∧
      news.map Listener.content = (gateways.flatMap mapGateway).filter fun l =>
        l.name ∉ (w.vrata.rows .listeners).map Listener.name := by
  have howned : ∀ n ∈ (gateways.flatMap mapGateway).map Listener.name, isOwned n = true :=
    List.forall_mem_map.mpr fun l hl => (mem_mapGateways hl).2
  obtain ⟨hfine₁, news, hrows₁, hnews⟩ := foldl_syncListener_of_fine (b := b) hfine
    (fun l hl => (mem_mapGateways hl).1) hnames
  refine ⟨news, ?_, hnews⟩
  unfold syncAllGateways
  rw [hlist]
  simp only
  rw [attempt_ownedListenerNames hfine₁]
  generalize (gateways.flatMap mapGateway).foldl (syncListener b) w = w₁ at hfine₁ hrows₁
  have hcount : ∀ n, isOwned n = true → n ∉ (gateways.flatMap mapGateway).map Listener.name →
      (((b.listing .listeners (w₁.vrata.rows .listeners)).map Listener.name).filter isOwned).count n =
        (w₁.vrata.rows .listeners).countP fun l => l.name = n := by
    intro n hn _
    rw [List.count_filter hn, List.count_eq_countP, List.countP_map,
      (b.listing_perm .listeners _).countP_eq]
    rfl
  have hrows₂ := foldl_collectListener_of_fine (b := b)
    (hfine₁.sent (.list .listeners) w₁.vrata) (fun n hn => (List.mem_filter.mp hn).2) hcount
  have hnew : ∀ l ∈ news, l.name ∈ (gateways.flatMap mapGateway).map Listener.name := by
    intro l hl
    have hmem : l.content ∈ news.map Listener.content := List.mem_map_of_mem hl
    rw [hnews] at hmem
    exact List.mem_map.mpr ⟨l.content, (List.mem_filter.mp hmem).1, rfl⟩
  have hkept : ∀ l : Listener, (isOwned l.name && (!isOwned l.name ||
      decide (l.name ∈ (gateways.flatMap mapGateway).map Listener.name))) =
        decide (l.name ∈ (gateways.flatMap mapGateway).map Listener.name) := by
    intro l
    by_cases hmem : l.name ∈ (gateways.flatMap mapGateway).map Listener.name
    · simp [hmem, howned _ hmem]
    · cases isOwned l.name <;> simp [hmem]
  rw [hrows₂, World.vrata_sent, hrows₁, List.filter_filter]
  simp only [hkept]
  rw [List.filter_append, List.filter_eq_self.mpr fun l hl => decide_eq_true (hnew l hl)]

end Fine

/-- Two lists of listeners agree where their names meet. -/
theorem perm_content_iff {rows images : List Listener} (hrows : rows.Nodup)
    (hnames : (images.map Listener.name).Nodup) :
    ((rows.filter fun l => l.name ∈ images.map Listener.name).map Listener.content).Perm
        (images.filter fun l => l.name ∈ rows.map Listener.name) ↔
      ∀ l ∈ images,
        (∀ y ∈ rows, ∀ y' ∈ rows, y.name = l.name → y'.name = l.name → y = y') ∧
          ∀ y ∈ rows, y.name = l.name → y.content = l := by
  have hshared : ∀ {y l : Listener}, y ∈ rows → l ∈ images → y.name = l.name →
      y ∈ rows.filter fun l => l.name ∈ images.map Listener.name := fun hy hl hname =>
    List.mem_filter.mpr ⟨hy, decide_eq_true (hname ▸ List.mem_map_of_mem hl)⟩
  constructor
  · intro h l hl
    refine ⟨fun y hy y' hy' hname hname' => ?_, fun y hy hname => ?_⟩
    · have hnodup := (h.map Listener.name).nodup_iff.mpr
        (List.Nodup.sublist (List.filter_sublist.map _) hnames)
      rw [List.map_map] at hnodup
      exact List.inj_on_of_nodup_map hnodup (hshared hy hl hname) (hshared hy' hl hname')
        (hname.trans hname'.symm)
    · have hmem := h.mem_iff.mp (List.mem_map_of_mem (hshared hy hl hname))
      exact List.inj_on_of_nodup_map hnames (List.mem_filter.mp hmem).1 hl hname
  · intro h
    refine (List.perm_ext_iff_of_nodup ?_ ((hnames.of_map _).filter _)).mpr fun l => ?_
    · refine List.Nodup.map_on (fun y hy y' hy' hcontent => ?_) (hrows.filter _)
      obtain ⟨hy, hname⟩ := List.mem_filter.mp hy
      obtain ⟨l, hl, hln⟩ := List.mem_map.mp (of_decide_eq_true hname)
      have hsame : y.content.name = y'.content.name := congrArg Listener.name hcontent
      exact (h l hl).1 y hy y' (List.mem_filter.mp hy').1 hln.symm (hsame.symm.trans hln.symm)
    · constructor
      · intro hmem
        obtain ⟨y, hy, rfl⟩ := List.mem_map.mp hmem
        obtain ⟨hy, hname⟩ := List.mem_filter.mp hy
        obtain ⟨l, hl, hln⟩ := List.mem_map.mp (of_decide_eq_true hname)
        have heq : y.content = l := (h l hl).2 y hy hln.symm
        have hmem : y.content.name ∈ rows.map Listener.name := List.mem_map.mpr ⟨y, hy, rfl⟩
        exact List.mem_filter.mpr ⟨heq ▸ hl, decide_eq_true hmem⟩
      · intro hmem
        obtain ⟨hl, hname⟩ := List.mem_filter.mp hmem
        obtain ⟨y, hy, hyn⟩ := List.mem_map.mp (of_decide_eq_true hname)
        exact List.mem_map.mpr ⟨y, hshared hy hl hyn, (h l hl).2 y hy hyn⟩

/-- Gateway synchronisation without failures converges exactly from the states in which the listeners
that are there fit. -/
theorem listenersConverged_iff (b : Backend) (cfg : Config) (t : Tick) (w : World)
    (gateways : List Gateway) (hfine : w.Fine) (hlist : t.listGateways cfg = some gateways)
    (hnames : ((gateways.flatMap mapGateway).map Listener.name).Nodup) :
    ListenersConverged gateways (syncAllGateways b cfg t w).vrata ↔
      ListenersFit gateways w.vrata := by
  obtain ⟨news, howned, hnews⟩ := owned_syncAllGateways (b := b) hfine hlist hnames
  have hsplit := List.filter_append_perm
    (fun l => decide (l.name ∈ (w.vrata.rows .listeners).map Listener.name))
    (gateways.flatMap mapGateway)
  have hnot : (fun l : Listener =>
      !decide (l.name ∈ (w.vrata.rows .listeners).map Listener.name)) =
        fun l => decide (l.name ∉ (w.vrata.rows .listeners).map Listener.name) := by
    funext l
    exact (decide_not ..).symm
  rw [hnot] at hsplit
  have hrows : (w.vrata.rows .listeners).Nodup := (w.vrata.table .listeners).nodup.of_map _
  unfold ListenersConverged
  rw [howned, List.map_append, hnews, ← hsplit.congr_right, List.perm_append_right_iff,
    perm_content_iff hrows hnames]
  rfl

/-! ## A Gateway that is edited -/

/-- A Gateway with these listeners. -/
def edgeGateway (listeners : List GatewayListener) : Gateway := ⟨"default", "edge", listeners⟩

/-- What a cycle sees of it. -/
def edgeTick (listeners : List GatewayListener) : Tick :=
  { cluster := { gateways := [edgeGateway listeners] } }

/-- After a cycle with one listener. -/
def edgeWorld : World := syncAllGateways .plain {} (edgeTick [⟨"http", 80⟩]) .start

/-- A second listener is created, and the first one is left as it is. -/
theorem listenersConverged_edge :
    ListenersConverged [edgeGateway [⟨"http", 80⟩, ⟨"https", 443⟩]]
      (syncAllGateways .plain {} (edgeTick [⟨"http", 80⟩, ⟨"https", 443⟩]) edgeWorld).vrata := by
  refine (listenersConverged_iff .plain {} (edgeTick [⟨"http", 80⟩, ⟨"https", 443⟩]) edgeWorld
    [edgeGateway [⟨"http", 80⟩, ⟨"https", 443⟩]] (fun _ h => by cases h) rfl (by decide +kernel)).mpr ?_
  have hrows : edgeWorld.vrata.rows .listeners = [⟨"a", "k8s:default/edge/http", "0.0.0.0", 80⟩] := rfl
  simp only [ListenersFit, AtMostOne, hrows]
  decide +kernel

/-- When the port is edited the listener keeps the old one. -/
theorem edited_port_kept :
    ((syncAllGateways .plain {} (edgeTick [⟨"http", 8080⟩]) edgeWorld).vrata.rows .listeners).map
        Listener.port = [80] ∧
      (mapGateway (edgeGateway [⟨"http", 8080⟩])).map Listener.port = [8080] := by
  decide +kernel

end Vrata.Controller
