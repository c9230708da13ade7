import TopicMesh.Discovery
import TopicMesh.Proofs.KeyMap.Changing
import TopicMesh.Proofs.RouteTable.Listing

/-!
# Changes to different hosts

A change of a route table is **on a host** if it is made of changes of that host's routes
(`OnHost`); every table operation is (`onHost_run`).  Changes on different hosts do not
meet, although they go into the same nested maps and drop what they leave empty there:
in either order they lead to the same table (`OnHost.commute`), and what an operation
displaces is decided by the routes of its own host (`displaced_congr`).
-/

namespace TopicMesh

namespace RouteTable

variable {σ : Type}

/-! ## Changes on a host -/

/-- The hosts of a topic with the route to one port changed. -/
def changedIn (host : String) (port : UInt16)
    (f : Option (RouteEntry σ) → Option (RouteEntry σ)) (hosts : HostMap σ) : HostMap σ :=
  hosts.within host fun ports => ports.put port (f (ports.get? port))

theorem change_eq (t : RouteTable σ) (topic host : String) (port : UInt16)
    (f : Option (RouteEntry σ) → Option (RouteEntry σ)) :
    t.change topic host port f = ⟨t.byTopic.within topic (changedIn host port f)⟩ := rfl

theorem change_comm {host host' : String} (ne : host ≠ host') (t : RouteTable σ)
    (topic topic' : String) (port port' : UInt16)
    (f g : Option (RouteEntry σ) → Option (RouteEntry σ)) :
    (t.change topic host port f).change topic' host' port' g =
      (t.change topic' host' port' g).change topic host port f := by
  have inner : Function.Commute (changedIn host port f) (changedIn host' port' g) :=
    fun hosts => hosts.within_comm fun same => absurd same.symm ne
  simp only [change_eq, t.byTopic.within_comm fun _ => inner]

theorem removeHost_change_comm {host host' : String} (ne : host ≠ host') (t : RouteTable σ)
    (topic : String) (port : UInt16) (f : Option (RouteEntry σ) → Option (RouteEntry σ)) :
    ((t.change topic host port f).removeHost host').1 =
      (t.removeHost host').1.change topic host port f := by
  have inner : Function.Commute (fun hosts : HostMap σ => hosts.erase host')
      (changedIn host port f) := by
    intro hosts
    have inside : (hosts.erase host').innerOf host = hosts.innerOf host := by
      rw [KeyMap.innerOf_erase, if_neg (Ne.symm ne)]
    dsimp only
    unfold changedIn KeyMap.within
    rw [inside]
    exact hosts.put_comm ne _ none
  simp only [change_eq, removeHost,
    t.byTopic.everywhere_within_comm topic (KeyMap.erase_empty host') inner]

theorem removeHost_comm {host host' : String} (ne : host ≠ host') (t : RouteTable σ) :
    ((t.removeHost host).1.removeHost host').1 = ((t.removeHost host').1.removeHost host).1 := by
  have inner : Function.Commute (fun hosts : HostMap σ => hosts.erase host)
      (fun hosts => hosts.erase host') :=
    fun hosts => hosts.put_comm (Ne.symm ne) none none
  simp only [removeHost,
    t.byTopic.everywhere_comm (KeyMap.erase_empty host) (KeyMap.erase_empty host') inner]

/-- **Whether a change of a table is on a host**: made of changes of the host's routes. -/
inductive OnHost (host : String) : (RouteTable σ → RouteTable σ) → Prop
  | nothing : OnHost host id
  | change (topic : String) (port : UInt16) (f : Option (RouteEntry σ) → Option (RouteEntry σ)) :
      OnHost host fun t => t.change topic host port f
  | removeHost : OnHost host fun t => (t.removeHost host).1
  | andThen {act act' : RouteTable σ → RouteTable σ} (first : OnHost host act)
      (second : OnHost host act') : OnHost host (act' ∘ act)

namespace OnHost

variable {host host' : String} {act act' : RouteTable σ → RouteTable σ}

/-- **Changes on different hosts commute.** -/
theorem commute (on : OnHost host act) (on' : OnHost host' act') (ne : host ≠ host') :
    Function.Commute act act' := by
  induction on with
  | nothing => exact .id_left
  | andThen _ _ first second => exact second.comp_left first
  | change topic port f =>
    induction on' with
    | nothing => exact .id_right
    | andThen _ _ first second => exact second.comp_right first
    | change topic' port' g => exact fun t => change_comm (Ne.symm ne) t topic' topic port' port g f
    | removeHost => exact fun t => (removeHost_change_comm ne t topic port f).symm
  | removeHost =>
    induction on' with
    | nothing => exact .id_right
    | andThen _ _ first second => exact second.comp_right first
    | change topic' port' g => exact fun t => removeHost_change_comm (Ne.symm ne) t topic' port' g
    | removeHost => exact fun t => removeHost_comm (Ne.symm ne) t

/-- A change on a host leaves the routes of other hosts alone. -/
theorem elsewhere (on : OnHost host act) (ne : host ≠ host') (t : RouteTable σ) (topic : String)
    (port : UInt16) : (act t).route? topic host' port = t.route? topic host' port := by
  induction on generalizing t with
  | nothing => rfl
  | andThen _ _ first second => exact (second _).trans (first t)
  | change topic' port' f => exact (route?_change ..).trans (if_neg fun same => ne same.2.1)
  | removeHost => exact (route?_removeHost ..).trans (if_neg ne)

end OnHost

/-- Whether two tables have the same routes to a host. -/
def SameOn (host : String) (t t' : RouteTable σ) : Prop :=
  ∀ topic port, t.route? topic host port = t'.route? topic host port

/-- What a change on a host makes of the host's routes is decided by them. -/
theorem OnHost.same {host : String} {act : RouteTable σ → RouteTable σ} (on : OnHost host act)
    {t t' : RouteTable σ} (same : SameOn host t t') : SameOn host (act t) (act t') := by
  induction on generalizing t t' with
  | nothing => exact same
  | andThen _ _ first second => exact second (first same)
  | change topic port f =>
    intro topic' port'
    simp only [route?_change, same topic port, same topic' port']
  | removeHost =>
    intro topic port
    rw [route?_removeHost, route?_removeHost, if_pos rfl, if_pos rfl]

/-! ## Operations -/

theorem onHost_apply (host : String) (updates : List RouteUpdate) :
    OnHost host fun t : RouteTable σ => (t.apply host updates).1 := by
  induction updates with
  | nil => exact .nothing
  | cons u rest ih =>
    exact .andThen (.change u.topic u.port fun r => some (updated host u.port u.protocol r)) ih

theorem onHost_retire (host : String) (names : List (String × UInt16)) :
    OnHost host fun t : RouteTable σ => (t.retire host names).1 := by
  induction names with
  | nil => exact .nothing
  | cons name rest ih => exact .andThen (.change name.1 name.2 fun _ => none) ih

theorem displaced_apply_congr {host : String} {t t' : RouteTable σ} (same : SameOn host t t')
    (updates : List RouteUpdate) : (t.apply host updates).2 = (t'.apply host updates).2 := by
  induction updates generalizing t t' with
  | nil => rfl
  | cons u rest ih =>
    have changed := (OnHost.change u.topic u.port
      fun r => some (updated host u.port u.protocol r)).same same
    show (displacedBy u.protocol (t.route? u.topic host u.port)).toList ++ _ = _
    rw [same]
    exact congrArg _ (ih changed)

theorem displaced_retire_congr {host : String} {t t' : RouteTable σ} (same : SameOn host t t')
    (names : List (String × UInt16)) : (t.retire host names).2 = (t'.retire host names).2 := by
  induction names generalizing t t' with
  | nil => rfl
  | cons name rest ih =>
    have changed := (OnHost.change name.1 name.2 fun _ => none).same same
    show ((t.route? name.1 host name.2).bind RouteEntry.session).toList ++ _ = _
    rw [same]
    exact congrArg _ (ih changed)

/-- The routes to a host are listed alike if they are the same. -/
theorem routes_of_host_congr {host : String} {t t' : RouteTable σ} (same : SameOn host t t') :
    (t.routes.filter fun e => e.1.host = host) = t'.routes.filter fun e => e.1.host = host := by
  have members : (t.routes.filter fun e => e.1.host = host).Perm
      (t'.routes.filter fun e => e.1.host = host) := by
    refine (List.perm_ext_iff_of_nodup (t.routes_nodup.filter _) (t'.routes_nodup.filter _)).2 ?_
    rintro ⟨p, r⟩
    rw [List.mem_filter, List.mem_filter, mem_routes_iff, mem_routes_iff]
    refine and_congr_left fun here => ?_
    have here : p.host = host := of_decide_eq_true here
    rw [at?, at?, here, same]
  -- both listings are in the order of the places
  exact members.eq_of_pairwise (fun a b _ _ before after => absurd after before.asymm)
    (t.routes_ascending.filter _) (t'.routes_ascending.filter _)

theorem displaced_removeHost_congr {host : String} {t t' : RouteTable σ} (same : SameOn host t t') :
    (t.removeHost host).2 = (t'.removeHost host).2 := by
  rw [displaced_of_removeHost, displaced_of_removeHost, routes_of_host_congr same]

end RouteTable

namespace TableOp

open RouteTable

variable {σ : Type}

/-- The host whose routes an operation changes. -/
def host : TableOp → String
  | removeHost host => host
  | apply host _ => host
  | retire host _ => host

theorem onHost_run (op : TableOp) : OnHost op.host fun t : RouteTable σ => (op.run t).1 := by
  cases op with
  | removeHost host => exact .removeHost
  | apply host updates => exact onHost_apply host updates
  | retire host names => exact onHost_retire host names

/-- **What an operation displaces is decided by the routes of its host.** -/
theorem displaced_congr {op : TableOp} {t t' : RouteTable σ} (same : SameOn op.host t t') :
    (op.run t).2 = (op.run t').2 := by
  cases op with
  | removeHost host => exact displaced_removeHost_congr same
  | apply host updates => exact displaced_apply_congr same updates
  | retire host names => exact displaced_retire_congr same names

variable {host : String} {ops : List TableOp}

theorem onHost_runAll (on : ∀ op ∈ ops, op.host = host) :
    OnHost host fun t : RouteTable σ => (runAll t ops).1 := by
  induction ops with
  | nil => exact .nothing
  | cons op rest ih =>
    have first := on op List.mem_cons_self
    have others := ih fun op' there => on op' (List.mem_cons_of_mem _ there)
    exact .andThen (first ▸ onHost_run op) others

theorem displaced_runAll_congr (on : ∀ op ∈ ops, op.host = host) {t t' : RouteTable σ}
    (same : SameOn host t t') : (runAll t ops).2 = (runAll t' ops).2 := by
  induction ops generalizing t t' with
  | nil => rfl
  | cons op rest ih =>
    obtain rfl := on op List.mem_cons_self
    have others := ih (fun op' there => on op' (List.mem_cons_of_mem _ there))
      ((onHost_run op).same same)
    show (op.run t).2 ++ _ = (op.run t').2 ++ _
    rw [displaced_congr same]
    exact congrArg _ others

end TableOp

end TopicMesh
