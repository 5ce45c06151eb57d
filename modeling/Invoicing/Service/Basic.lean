import Invoicing.Service.Config
import Invoicing.Service.Task
import Invoicing.Timer

set_option autoImplicit false

/-! # The data service

The service has to be set up before anything else. From then on its watermark is the time up to which the
storage said that its answer reaches, in the last answer that was indexed without trouble; a synchronization
that fails leaves the watermark where it was. A timer can synchronize at intervals. -/

namespace Invoicing

/-- What the service remembers, and the site it works on. -/
structure Engine where
  isReady : Bool
  watermark : Timestamp
  site : Site

namespace Engine

variable {α : Type}

/-- An engine that has not been set up. -/
def new (site : Site) : Engine := ⟨false, 0, site⟩

/-- Does a task, once the engine is set up. -/
def perform (e : Engine) (task : Task α) : Except ServiceError α × Engine :=
  if e.isReady then
    let (result, site) := task.run e.site
    (result, { e with site })
  else (.error .notReady, e)

/-- Sets the engine up, which is possible once; the watermark is where the first answer ends. -/
def setUp (e : Engine) : Except ServiceError Unit × Engine :=
  if e.isReady then (.error .alreadyReady, e)
  else
    match Task.setUp.run e.site with
    | (.ok watermark, site) => (.ok (), ⟨true, watermark, site⟩)
    | (.error error, site) => (.error error, { e with site })

/-- Indexes what is new and moves the watermark, if all went well. -/
def synchronize (e : Engine) : Except ServiceError Task.SyncReport × Engine :=
  match e.perform (Task.synchronize e.watermark) with
  | (.ok (report, watermark), e) => (.ok report, { e with watermark })
  | (.error error, e) => (.error error, e)

end Engine

/-- The service with its timer. -/
structure DataService where
  config : ServiceConfig
  engine : Engine
  timer : Timer Unit

namespace DataService

variable {α : Type}

/-- A service that has not been set up, with its timer at the instant `now`. -/
def new (config : ServiceConfig) (site : Site) (now : Nat) : DataService where
  config := config
  engine := .new site
  timer := .new config.interval.toNat config.maxAttempts.toNat now

/-- A new service in place of this one, with the timer stopped, on the site as it is. -/
def replaced (s : DataService) (site : Site) : DataService := new s.config site s.timer.now

def onEngine (s : DataService) (f : Engine → α × Engine) : α × DataService :=
  let (result, engine) := f s.engine
  (result, { s with engine })

/-! ## Operations -/

def setUp (s : DataService) : Except ServiceError Unit × DataService := s.onEngine Engine.setUp

def synchronize (s : DataService) : Except ServiceError Task.SyncReport × DataService :=
  s.onEngine Engine.synchronize

def persist (s : DataService) (t : Transaction) (channel : String) (topics : List String) :
    Except ServiceError Receipt × DataService :=
  s.onEngine fun e => e.perform (Task.persist t channel topics)

/-- The transactions of a channel in a window. -/
def channel (s : DataService) (channel : String) (window : Option Window) :
    Except ServiceError ChannelView × DataService :=
  s.onEngine fun e => e.perform (ChannelView.ofEntries <$> Task.channelEntries channel window)

/-- The transactions of all channels with one of the topics that were updated in a window. -/
def channelsOfTopics (s : DataService) (topics : List String) (window : Option Window) :
    Except ServiceError ChannelViews × DataService :=
  s.onEngine fun e => e.perform (ChannelViews.ofEntries <$> Task.topicsEntries topics window)

/-! ## Automatic synchronization -/

/-- One synchronization as the timer's task. -/
def synchronizeCall (_ : Unit) (e : Engine) : Outcome × Unit × Engine :=
  match e.synchronize with
  | (.ok _, e) => (.ends 0 true, (), e)
  | (.error _, e) => (.ends 0 false, (), e)

/-- Starts synchronizing at intervals. -/
def start (s : DataService) : Except ServiceError Unit × DataService :=
  if s.engine.isReady then (.ok (), { s with timer := (s.timer.start ()).2 })
  else (.error .notReady, s)

def stop (s : DataService) : DataService := { s with timer := s.timer.stop }

/-- Lets some milliseconds pass. -/
def sleep (s : DataService) (ms : Nat) : DataService :=
  let (timer, engine) := s.timer.advance synchronizeCall ms s.engine
  { s with timer, engine }

/-! ## The site -/

def site (s : DataService) : Site := s.engine.site

/-- Changes the site from outside. -/
def onSite (s : DataService) (f : Site → Site) : DataService :=
  { s with engine := { s.engine with site := f s.engine.site } }

end DataService

end Invoicing
