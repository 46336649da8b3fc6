import MessageConformance.Proofs.Batch.Outcomes
import MessageConformance.Proofs.Cache.Faithful

/-!
# Files that are checked on one cache

Checking a file uses the cache for nothing but to open a session, and looks at nothing of the session
but the texts of its schema. On a faithful cache a file thus comes to what it comes to on its own
(`Job.ignoresCache_checkFile`), and what follows finds a faithful cache again. Hence no file of a
batch makes a difference to another one (`Job.together_eq_map_alone`).
-/

namespace MessageConformance

open Files (Volume)

variable {engine : Engine} {store : Store}

/-! ## Checks -/

theorem Session.check_eq_of_input {s s' : Session} (same : s.schema.input = s'.schema.input)
    (document : Bytes) : s.check engine document = s'.check engine document := by
  unfold Session.check Session.validate
  rw [same]

theorem Session.ignoresCache_check {w : World} (s : Session) (document : Bytes) :
    (s.check engine document).IgnoresCache w := by
  intro c faithful
  show (s.check engine document).outcome c = (s.check engine document).outcome .empty ∧
    ((s.check engine document).after c).IsFaithful w
  rw [Session.outcome_check, Session.outcome_check, Session.after_check]
  exact ⟨rfl, faithful⟩

namespace Receipt

open Message

theorem ignoresCache_checkStructure (messaging : Node) :
    (checkStructure engine store messaging).IgnoresCache ⟨engine, store⟩ := by
  refine ignoresCache_sessionFor_bind (w := ⟨engine, store⟩) (fun s s' same => ?_) fun s => ?_
  · simp only [Session.check_eq_of_input same]
  · exact (Attempt.ignoresCache_ofExcept _).bind fun text => (s.ignoresCache_check _).discard

theorem ignoresCache_judge (r : Registry) (message : String) :
    (judge engine store r message).IgnoresCache ⟨engine, store⟩ := by
  refine (Attempt.ignoresCache_ofExcept _).bind fun document => ?_
  split
  · exact Attempt.ignoresCache_pure false
  · refine (Attempt.ignoresCache_ofExcept _).bind fun messaging => ?_
    refine (ignoresCache_checkStructure messaging).bind fun _ => ?_
    refine (Attempt.ignoresCache_ofExcept _).bind fun receipt => ?_
    exact (Attempt.ignoresCache_ofExcept _).bind fun _ => Attempt.ignoresCache_pure true

end Receipt

/-! ## Files -/

theorem Work.IgnoresCache.onValue {α β : Type} {w : World} {work : Work α} (ignores : work.IgnoresCache w)
    (f : α → β) : Work.IgnoresCache w (work >>= fun a => pure (f a)) := by
  intro c faithful
  obtain ⟨same, kept⟩ := ignores c faithful
  rw [Job.run_bind_pure, Job.run_bind_pure]
  exact ⟨congrArg f same, kept⟩

theorem Work.ignoresCache_pure {α : Type} {w : World} (a : α) : Work.IgnoresCache w (pure a) :=
  fun _ faithful => ⟨rfl, faithful⟩

namespace Job

theorem ignoresCache_checkContent (job : Job) (path : String) (content : Bytes) :
    (job.checkContent engine store path content).IgnoresCache ⟨engine, store⟩ := by
  unfold checkContent
  split
  · split
    · exact Work.ignoresCache_pure _
    · next message _ =>
      refine Work.IgnoresCache.onValue ?_ _
      unfold Receipt.inspect
      split
      · exact Work.IgnoresCache.onValue (Receipt.ignoresCache_judge job.registry message) _
      · exact Attempt.ignoresCache_pure _
  · refine Work.IgnoresCache.onValue ?_ _
    exact ignoresCache_sessionFor_bind (w := ⟨engine, store⟩)
      (fun s s' same => Session.check_eq_of_input same content) fun s => s.ignoresCache_check content

theorem ignoresCache_checkFile (job : Job) (volume : Volume) (path : String) :
    (job.checkFile engine store volume path).IgnoresCache ⟨engine, store⟩ := by
  unfold checkFile
  split
  · split
    · exact Work.ignoresCache_pure _
    · exact job.ignoresCache_checkContent path _
  · exact Work.ignoresCache_pure _

/-- The result of a file that is checked on a cache of its own. -/
def alone (job : Job) (engine : Engine) (store : Store) (volume : Volume) (path : String) : FileResult :=
  ((job.checkFile engine store volume path).run .empty).1.1

/-- Files that are checked on a faithful cache come to what each comes to alone, and leave a faithful
    cache. -/
theorem run_checkFiles_of_isFaithful {job : Job} {volume : Volume} {c : Cache}
    (faithful : c.IsFaithful ⟨engine, store⟩) (paths : List String) :
    ((job.checkFiles engine store volume paths).run c).1.1 =
        paths.map (job.alone engine store volume) ∧
      ((job.checkFiles engine store volume paths).run c).1.2.IsFaithful ⟨engine, store⟩ := by
  induction paths generalizing c with
  | nil => exact ⟨rfl, faithful⟩
  | cons path paths ih =>
    obtain ⟨first, kept⟩ := job.ignoresCache_checkFile volume path c faithful
    obtain ⟨later, keptLater⟩ := ih kept
    rw [run_checkFiles_cons]
    exact ⟨congrArg₂ List.cons first later, keptLater⟩

/-- The results of files that are checked one after the other, beginning with an empty cache. -/
def together (job : Job) (engine : Engine) (store : Store) (volume : Volume) (paths : List String) :
    List FileResult :=
  ((job.checkFiles engine store volume paths).run .empty).1.1

/-- Files that are checked together come to what each comes to alone: its status, action and details
    are the same. So files that are put in another order take their results with them, files that are
    left out or put between take nothing from the others, and of the files that are there the content
    of no other one counts. -/
theorem together_eq_map_alone (job : Job) (engine : Engine) (store : Store) (volume : Volume) :
    (∀ paths : List String, job.together engine store volume paths =
      paths.map (job.alone engine store volume)) ∧
    (∀ paths paths' : List String, paths.Perm paths' →
      (paths.zip (job.together engine store volume paths)).Perm
        (paths'.zip (job.together engine store volume paths'))) ∧
    (∀ paths paths' : List String, paths.Sublist paths' →
      (paths.zip (job.together engine store volume paths)).Sublist
        (paths'.zip (job.together engine store volume paths'))) ∧
    ∀ (path : String) (volume' : Volume), volume'.read path = volume.read path →
      job.alone engine store volume' path = job.alone engine store volume path := by
  have mapped (paths : List String) : job.together engine store volume paths =
      paths.map (job.alone engine store volume) :=
    (run_checkFiles_of_isFaithful isFaithful_empty paths).1
  have zipped (paths : List String) : paths.zip (job.together engine store volume paths) =
      paths.map fun path => (path, job.alone engine store volume path) := by
    rw [mapped, List.map_prod_left_eq_zip]
  refine ⟨mapped, fun paths paths' order => ?_, fun paths paths' part => ?_, fun path volume' same => ?_⟩
  · rw [zipped, zipped]
    exact order.map _
  · rw [zipped, zipped]
    exact part.map _
  · rw [alone, alone, checkFile, checkFile, same]

/-! ## A batch of three -/

/-- An engine that compiles every schema and finds an error in the document `<b/>`. -/
def choosyEngine : Engine where
  requests _ := some []
  compile _ := ([], true)
  opens _ := true
  pass _ document :=
    if document = Bytes.ascii "<b/>" then .checked [some ⟨2, 1, 1, none⟩] 1 else .checked [] 0
  fetch _ := none

/-- The schemas of receipts, of which none declares anything. -/
def plainStore : Store where
  documents := [
    (⟨["ebxml", "ebms-header-3_0-200704.xsd"], by decide, by decide⟩, Schema.writeSchema none []),
    (⟨["ebxml", "ebbp-signals-2.0.xsd"], by decide, by decide⟩, Schema.writeSchema none []),
    (⟨["w3", "xmldsig-core-schema.xsd"], by decide, by decide⟩, Schema.writeSchema none [])]
  distinct := by decide

/-- A document in order and one with an error. -/
def twoFiles : Volume := ⟨[("a", .file (some (Bytes.ascii "<a/>"))), ("b", .file (some (Bytes.ascii "<b/>")))], []⟩

def documentJob : Job := { mode := .enforcing, context := .nrrReceipt }

/-- A file that is not there and one with an error make no difference to the one in order, wherever
    they stand and whether they are checked at all. -/
theorem together_twoFiles :
    ["a", "b", "c"].Perm ["c", "b", "a"] ∧ ["b"].Sublist ["a", "b", "c"] ∧
    (["a", "b", "c"].zip (documentJob.together choosyEngine plainStore twoFiles ["a", "b", "c"])).Perm
      (["c", "b", "a"].zip (documentJob.together choosyEngine plainStore twoFiles ["c", "b", "a"])) ∧
    (["b"].zip (documentJob.together choosyEngine plainStore twoFiles ["b"])).Sublist
      (["a", "b", "c"].zip (documentJob.together choosyEngine plainStore twoFiles ["a", "b", "c"])) ∧
    (documentJob.together choosyEngine plainStore twoFiles ["a", "b", "c"]).map (·.status) =
      [.valid, .invalid 1, .error "IO error: No such file or directory (os error 2)"] := by
  obtain ⟨mapped, reordered, thinned, -⟩ :=
    together_eq_map_alone documentJob choosyEngine plainStore twoFiles
  have order : ["a", "b", "c"].Perm ["c", "b", "a"] := by decide
  have part : ["b"].Sublist ["a", "b", "c"] := by decide
  have split : ∀ name ∈ ["a", "b", "c"], Text.split '/' name = [name] := by decide +kernel
  have read (name : String) (listed : name ∈ ["a", "b", "c"]) : twoFiles.read name =
      if name = "a" then .ok (Bytes.ascii "<a/>")
      else if name = "b" then .ok (Bytes.ascii "<b/>") else .error .missing := by
    simp only [List.mem_cons, List.not_mem_nil, or_false] at listed
    obtain rfl | rfl | rfl := listed <;>
      simp [twoFiles, Volume.read, Volume.locate, Volume.around, Files.walk, Files.start,
        Files.isAbsolute, split, List.lookup_cons, bind, Except.bind]
  refine ⟨order, part, reordered _ _ order, thinned _ _ part, ?_⟩
  rw [mapped]
  simp only [List.map_cons, List.map_nil, alone, checkFile, read "a" (by simp), read "b" (by simp),
    read "c" (by simp)]
  decide +kernel

end Job
end MessageConformance
