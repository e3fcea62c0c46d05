import SqlCodeGenerator.ConstraintIntegrity
import SqlCodeGenerator.BatchComposition
import SqlCodeGenerator.LoadCompleteness
import SqlCodeGenerator.StringBoundaries
import SqlCodeGenerator.DroppedStatements
import SqlCodeGenerator.DdlMeaning
import SqlCodeGenerator.Identities
import SqlCodeGenerator.ReplyRouting
import SqlCodeGenerator.OpenJobs
import SqlCodeGenerator.JobResults
import SqlCodeGenerator.Cancellations
import SqlCodeGenerator.AdminLogins
import SqlCodeGenerator.Uploads
import SqlCodeGenerator.ParserBounds
import SqlCodeGenerator.TupleOrder
import SqlCodeGenerator.HistoryReport
import SqlCodeGenerator.TableKeys
import SqlCodeGenerator.AddressBlocks
import SqlCodeGenerator.ConnectSlots
import SqlCodeGenerator.ConfigReaders
import SqlCodeGenerator.Downloads
import SqlCodeGenerator.RequestQueue
import SqlCodeGenerator.JobRetention
import SqlCodeGenerator.BoundedRendering
import SqlCodeGenerator.ClientAccounting
import SqlCodeGenerator.QueueSections
import SqlCodeGenerator.Shutdown
import SqlCodeGenerator.Logging
import SqlCodeGenerator.Statistics
import SqlCodeGenerator.JobTimes
import SqlCodeGenerator.CommandLine
import SqlCodeGenerator.ClientAddresses
import SqlCodeGenerator.InterfaceThread
import SqlCodeGenerator.ClientProgram
import SqlCodeGenerator.ClientAgreement
import SqlCodeGenerator.AcknowledgedRows
