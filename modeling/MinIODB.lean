import MinIODB.Wal.Refinement
import MinIODB.Buffer.History
import MinIODB.Buffer.Accounting
import MinIODB.Buffer.Visibility
import MinIODB.Buffer.Protection
import MinIODB.Buffer.Resurrection
import MinIODB.Buffer.Shutdown
import MinIODB.Buffer.Compensation
import MinIODB.Query.EmptyInputs
import MinIODB.Query.SharedOptimizer
import MinIODB.Query.Statistics
import MinIODB.Query.PartitionDay
import MinIODB.Query.ViewCache
import MinIODB.Query.QueryCache
import MinIODB.Query.Approximation
import MinIODB.Query.TableNames
import MinIODB.Coordinator.Distributed
import MinIODB.Service.Update
import MinIODB.Service.FailedUpdate
import MinIODB.Pool.Sync
import MinIODB.Replication.Convergence
import MinIODB.Coordinator.Grouping
import MinIODB.Service.StreamQuery
import MinIODB.Service.StreamWrite
import MinIODB.Compaction.Preservation
import MinIODB.Backup.SystemPlans
import MinIODB.Backup.Restoration
import MinIODB.Metadata.Survival
import MinIODB.Security.FieldEncryption
import MinIODB.Security.RefreshTokens
import MinIODB.Security.SlidingWindow
import MinIODB.Discovery.Registry
import MinIODB.Dashboard.Browse
import MinIODB.Wal.Damage
import MinIODB.Retry.CircuitBreaker
import MinIODB.Lock.Optimistic
