import ClusterSnapshot.Json.Record

/-!
# Configurations of the scheduler

Of a scheduler's configuration the library knows its profiles and its extenders, programs that the
scheduler consults while it schedules. `Configuration.routeExtendersThrough` sends the calls to all
extenders to one address, where each is told apart by its position in the configuration.
-/

namespace ClusterSnapshot.Scheduler

/-- A profile under which pods are scheduled. -/
structure Profile where
  schedulerName? : Option String
  plugins? : Option Json
  extra : KeyMap Json

/-- How the scheduler reaches an extender: an address and a verb for every phase in which the
extender takes part. -/
structure ExtenderConfig where
  urlPrefix : String
  filterVerb? : Option String
  prioritizeVerb? : Option String
  preemptVerb? : Option String
  bindVerb? : Option String
  weight : Int64
  extra : KeyMap Json

/-- A configuration of the scheduler. -/
structure Configuration where
  apiVersion? : Option String
  kind? : Option String
  parallelism? : Option Int32
  profiles : List Profile
  extenders : List ExtenderConfig
  extra : KeyMap Json

section Forms

open Members Member

/-- The members of a profile. -/
def Profile.form : RecordForm Profile :=
  .withRest
    (build Profile.mk
      |>.and (optional "schedulerName") (·.schedulerName?)
      |>.and (optional "plugins") (·.plugins?))
    (·.extra)

instance : JsonForm Profile := Profile.form.jsonForm

/-- The members of an extender's settings. -/
def ExtenderConfig.form : RecordForm ExtenderConfig :=
  .withRest
    (build ExtenderConfig.mk
      |>.and (required "urlPrefix") (·.urlPrefix)
      |>.and (optional "filterVerb") (·.filterVerb?)
      |>.and (optional "prioritizeVerb") (·.prioritizeVerb?)
      |>.and (optional "preemptVerb") (·.preemptVerb?)
      |>.and (optional "bindVerb") (·.bindVerb?)
      |>.and (defaulted "weight" 0) (·.weight))
    (·.extra)

instance : JsonForm ExtenderConfig := ExtenderConfig.form.jsonForm

/-- The members of a configuration. -/
def Configuration.form : RecordForm Configuration :=
  .withRest
    (build Configuration.mk
      |>.and (optional "apiVersion") (·.apiVersion?)
      |>.and (optional "kind") (·.kind?)
      |>.and (optional "parallelism") (·.parallelism?)
      |>.and (unlessEmpty "profiles" [] List.isEmpty) (·.profiles)
      |>.and (unlessEmpty "extenders" [] List.isEmpty) (·.extenders))
    (·.extra)

instance : JsonForm Configuration := Configuration.form.jsonForm

end Forms

namespace Configuration

/-- The configuration that a scheduler starts with: one profile and no extenders. -/
def default : Configuration where
  apiVersion? := some "kubescheduler.config.k8s.io/v1beta2"
  kind? := some "KubeSchedulerConfiguration"
  parallelism? := none
  profiles := [⟨some "default-scheduler", none, ∅⟩]
  extenders := []
  extra := ∅

instance : Inhabited Configuration := ⟨default⟩

end Configuration

/-- The verb under which the extender at a position is called: the phase, a slash and the
position. -/
def routedVerb (phase : String) (position : Nat) : String := phase ++ "/" ++ toString position

namespace ExtenderConfig

/-- The extender's settings with its calls sent to `url`. Verbs that are not set stay so. -/
def routeThrough (url : String) (position : Nat) (e : ExtenderConfig) : ExtenderConfig :=
  { e with
    urlPrefix := url
    filterVerb? := e.filterVerb?.map fun _ => routedVerb "filter" position
    prioritizeVerb? := e.prioritizeVerb?.map fun _ => routedVerb "prioritize" position
    preemptVerb? := e.preemptVerb?.map fun _ => routedVerb "preempt" position
    bindVerb? := e.bindVerb?.map fun _ => routedVerb "bind" position }

end ExtenderConfig

/-- The configuration under which the calls to all extenders go to `url`. -/
def Configuration.routeExtendersThrough (c : Configuration) (url : String) : Configuration :=
  { c with extenders := c.extenders.zipIdx.map fun (e, i) => e.routeThrough url i }

end ClusterSnapshot.Scheduler
