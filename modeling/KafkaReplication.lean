import KafkaReplication.Misc.BigEndian
import KafkaReplication.Misc.Buffer
import KafkaReplication.Misc.ReaderGrammar
import KafkaReplication.Misc.StdString
import KafkaReplication.Misc.Printf
import KafkaReplication.Misc.Run
import KafkaReplication.Misc.Monitor
import KafkaReplication.Misc.MonitorQuiet
import KafkaReplication.Misc.FairRounds
import KafkaReplication.Misc.LogReader
import KafkaReplication.Misc.Resend
import KafkaReplication.Misc.KeyedOrder
import KafkaReplication.Misc.Quoting
import KafkaReplication.Misc.SqlLexer
import KafkaReplication.Misc.SqlTokens
import KafkaReplication.Misc.Significant
import KafkaReplication.Misc.SqlNumbers
import KafkaReplication.Misc.Numerals
import KafkaReplication.Misc.SqlGrammar
import KafkaReplication.Misc.DoubleRange
import KafkaReplication.Misc.SqlTypes
import KafkaReplication.Misc.SqlSideBySide
import KafkaReplication.Misc.Conninfo
import KafkaReplication.Json
import KafkaReplication.SharedStructures
import KafkaReplication.Producer.Readers
import KafkaReplication.Producer.ReplicationMessage
import KafkaReplication.Producer.PgOutputParser
import KafkaReplication.Producer.Protocol
import KafkaReplication.Producer.TupleGrammar
import KafkaReplication.Producer.MessageDecode
import KafkaReplication.Producer.CutBodies
import KafkaReplication.Producer.BigEndianReads
import KafkaReplication.Producer.MessageGrammar
import KafkaReplication.Producer.TransactionDecode
import KafkaReplication.Producer.TupleOverloads
import KafkaReplication.Producer.RelationCache
import KafkaReplication.Producer.ConfigManager
import KafkaReplication.Producer.ConfigFile
import KafkaReplication.Producer.RestartLsn
import KafkaReplication.Producer.UpdateDecode
import KafkaReplication.Producer.TruncateDecode
import KafkaReplication.Producer.ParserBounds
import KafkaReplication.Producer.LibrdKafkaProducer
import KafkaReplication.Producer.Events
import KafkaReplication.Producer.RowContents
import KafkaReplication.Producer.PostgresqlReplicator
import KafkaReplication.Producer.RowEvents
import KafkaReplication.Producer.SentEvents
import KafkaReplication.Producer.Dispatch
import KafkaReplication.Producer.ColumnBounds
import KafkaReplication.Producer.NullMessage
import KafkaReplication.Producer.Session
import KafkaReplication.Producer.WalStream
import KafkaReplication.Producer.ChangeStream
import KafkaReplication.Producer.StandbyLsn
import KafkaReplication.Producer.StandbyReply
import KafkaReplication.Producer.Acknowledge
import KafkaReplication.Producer.Accounting
import KafkaReplication.Producer.Stored
import KafkaReplication.Consumer.SafeQueue
import KafkaReplication.Consumer.SafeQueueThreads
import KafkaReplication.Consumer.SafeQueueRest
import KafkaReplication.Consumer.DatabaseWriter
import KafkaReplication.Consumer.DeleteStatement
import KafkaReplication.Consumer.InsertStatement
import KafkaReplication.Consumer.ReplicationConsumer
import KafkaReplication.Consumer.Payloads
import KafkaReplication.Consumer.StatementText
import KafkaReplication.Consumer.WriterFaults
import KafkaReplication.Consumer.WhereClause
import KafkaReplication.Consumer.LiteralTokens
import KafkaReplication.Consumer.SetClause
import KafkaReplication.Consumer.InsertMeaning
import KafkaReplication.Consumer.ColumnTypes
import KafkaReplication.Consumer.CreateMatchesInsert
import KafkaReplication.Consumer.EscapeBuffer
import KafkaReplication.Consumer.TargetColumns
import KafkaReplication.Consumer.Offsets
import KafkaReplication.Consumer.Redelivery
import KafkaReplication.Consumer.Progress
import KafkaReplication.Pipeline.EventTrip
import KafkaReplication.Pipeline.RowText
import KafkaReplication.Pipeline.Delivery
import KafkaReplication.Pipeline.UpdateKey
import KafkaReplication.Pipeline.UnchangedColumns
import KafkaReplication.Pipeline.TargetTables
import KafkaReplication.Pipeline.Restart
import KafkaReplication.Pipeline.Restarts
import KafkaReplication.Pipeline.ReplicatedChange
import KafkaReplication.Pipeline.Arrival
import KafkaReplication.Pipeline.TargetServer
import KafkaReplication.Pipeline.Replica
import KafkaReplication.Pipeline.Mirror
import KafkaReplication.Pipeline.RowOrder
import KafkaReplication.Pipeline.TruncateReplica
import KafkaReplication.Pipeline.DeleteRow
import KafkaReplication.Consumer.LibRdkafkaConsumer
import KafkaReplication.Pipeline.Counters
import KafkaReplication.Connection
import KafkaReplication.Producer.StartReplication
