import Mathlib.Data.List.MinMax
import Vlb.Config

/-!
# The default route

The main routing table as far as default routes go, and what the daemon does to it with `ip route`.

* `Table.setDefaultRoute`: install a route at metric 0, then remove what ties with it.
* `Table.currentDefaults`, `Table.currentDefault`: the table as `ip route show` reports it.
* `InstalledRoute.leadsTo`: a route goes out where a provider does.
-/

namespace Vlb.Router

/-- A default route in the kernel's table; no gateway on a point-to-point link. -/
structure KernelRoute where
  gateway : Option Ipv4Addr
  interface : String
  metric : UInt32
  proto : String
  deriving DecidableEq

/-- The main table, and whether the daemon still owns a provisional route in it. -/
structure Table where
  routes : List KernelRoute
  ownsBootstrap : Bool
  deriving DecidableEq

/-- The default route as the kernel reports it. -/
structure InstalledRoute where
  gateway : Ipv4Addr
  interface : String
  metric : Option UInt32
  proto : Option String
  deriving DecidableEq

/-- The metric of the provisional route. -/
def bootstrapMetric : UInt32 := 4096

/-- A line of `ip route show default`, read back: metric 0 and protocol `boot` are not printed, and
a route without a next hop is skipped. -/
def KernelRoute.shown (r : KernelRoute) : Option InstalledRoute :=
  r.gateway.map fun gateway =>
    { gateway, interface := r.interface
      metric := if r.metric = 0 then none else some r.metric
      proto := if r.proto = "boot" then none else some r.proto }

/-- A route without a metric has 0. -/
def InstalledRoute.metricOrZero (r : InstalledRoute) : UInt32 := r.metric.getD 0

/-- The route goes out where the provider does. -/
def InstalledRoute.leadsTo (r : InstalledRoute) (p : Provider) : Bool :=
  r.gateway = p.gateway ∧ r.interface = p.interface

/-- What `ip route replace` looks for: the kernel keys a default route on its metric alone, the
comments in the source on its metric and its protocol. -/
inductive ReplaceKey
  | metric
  | metricAndProto
  deriving DecidableEq

/-- The first such route is overwritten by one at metric 0. -/
def ReplaceKey.takes : ReplaceKey → KernelRoute → Bool
  | .metric, r => r.metric = 0
  | .metricAndProto, r => r.metric = 0 ∧ r.proto = "static"

namespace Table

/-- The default routes that are listed. -/
def currentDefaults (t : Table) : List InstalledRoute := t.routes.filterMap KernelRoute.shown

/-- The route the kernel prefers: the first of the lowest metric. -/
def currentDefault (t : Table) : Option InstalledRoute :=
  t.currentDefaults.argmin fun r => r.metricOrZero.toNat

/-- `ip route replace default via .. dev .. metric 0 proto static` -/
def replace (key : ReplaceKey) (routes : List KernelRoute) (gateway : Ipv4Addr)
    (interface : String) : List KernelRoute :=
  let ours : KernelRoute := { gateway := some gateway, interface, metric := 0, proto := "static" }
  match routes.findIdx? key.takes with
  | some i => routes.set i ours
  | none => ours :: routes

/-- `ip route del default via .. dev .. metric .. [proto ..]` removes the first match. -/
def delete (routes : List KernelRoute) (r : InstalledRoute) : List KernelRoute :=
  routes.eraseP fun k => k.gateway = some r.gateway ∧ k.interface = r.interface ∧
    k.metric = r.metricOrZero ∧ r.proto.all (· = k.proto)

/-- The route is the one that was installed. -/
def isOurs (gateway : Ipv4Addr) (interface : String) (r : InstalledRoute) : Bool :=
  r.gateway = gateway ∧ r.interface = interface ∧ r.proto = some "static"

/-- What ties with ours at metric 0 is deleted, one listed route after another. -/
def removeCompetingDefaults (routes : List KernelRoute) (gateway : Ipv4Addr)
    (interface : String) : List KernelRoute :=
  ((routes.filterMap KernelRoute.shown).filter fun r =>
    r.metricOrZero = 0 ∧ ¬ isOurs gateway interface r).foldl delete routes

/-- The provisional route, if this process has put one there. -/
def dropBootstrapDefault (t : Table) : Table :=
  if t.ownsBootstrap then
    { routes := t.routes.eraseP fun k => k.metric = bootstrapMetric ∧ k.proto = "static"
      ownsBootstrap := false }
  else t

/-- `set_default_route` when its command succeeds. -/
def setDefaultRouteBy (key : ReplaceKey) (t : Table) (gateway : Ipv4Addr) (interface : String) :
    Table :=
  let routes := removeCompetingDefaults (replace key t.routes gateway interface) gateway interface
  dropBootstrapDefault { t with routes }

/-- `set_default_route` as the kernel carries it out. -/
def setDefaultRoute (t : Table) (gateway : Ipv4Addr) (interface : String) : Table :=
  t.setDefaultRouteBy .metric gateway interface

end Table

end Vlb.Router
