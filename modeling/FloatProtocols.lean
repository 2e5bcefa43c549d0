import FloatProtocols.Lib.Bytes
import FloatProtocols.Lib.Exec
import FloatProtocols.Otel.CompactSpan
import FloatProtocols.Otel.Bundle
import FloatProtocols.Otel.Builder
import FloatProtocols.Protocol
import FloatProtocols.Storage.Wal
import FloatProtocols.Lib.Trace
import FloatProtocols.Reliability.Breaker
import FloatProtocols.Reliability.BreakerThreads
import FloatProtocols.Gateway.Ewma
import FloatProtocols.Codec.InmarsatC
import FloatProtocols.Codec.Hfvhf
import FloatProtocols.Codec.Vsat
import FloatProtocols.Translator
import FloatProtocols.Sharding.Manager
import FloatProtocols.Sharding.Interleaving
import FloatProtocols.Sharding.Ledger
import FloatProtocols.Gateway.Cadence
import FloatProtocols.Storage.BiTemporal
import FloatProtocols.Storage.Cache
import FloatProtocols.Gateway.Clock
import FloatProtocols.Gateway.Tasks
import FloatProtocols.Gateway.CacheHits
import FloatProtocols.Codec.IridiumSbd
import FloatProtocols.Codec.Nidd
import FloatProtocols.Codec.Samsara
import FloatProtocols.Codec.SizeGuard
import FloatProtocols.Sensor.Serial
import FloatProtocols.Storage.WalScan
import FloatProtocols.Storage.WalThreads
import FloatProtocols.Storage.WalCompaction
import FloatProtocols.Gateway.Batchers
import FloatProtocols.Storage.CacheMap
import FloatProtocols.Storage.CacheQueue
import FloatProtocols.Storage.SnapshotStore
import FloatProtocols.Lib.RoundRobin
import FloatProtocols.Sharding.Pushes
import FloatProtocols.Gateway.Accounts
import FloatProtocols.Gateway.UplinkSnapshots
import FloatProtocols.Codec.AstsProtobuf
import FloatProtocols.Translator.Channel
import FloatProtocols.Lib.Delimited
import FloatProtocols.Otel.Converter
import FloatProtocols.Otel.Reconciler
import FloatProtocols.Codec.IridiumAsts
import FloatProtocols.Lib.Selection
import FloatProtocols.Otel.Beliefs
import FloatProtocols.Otel.TwoStores
import FloatProtocols.Reliability.BreakerPhases
import FloatProtocols.Reliability.BreakerClock
import FloatProtocols.LoRa.Mesh
import FloatProtocols.Lib.Crc
import FloatProtocols.Codec.IridiumCrc
import FloatProtocols.Codec.Decoders
import FloatProtocols.Lib.Json
import FloatProtocols.Otel.Json
import FloatProtocols.Otel.Spreads
import FloatProtocols.Lib.LazyQueue
import FloatProtocols.Storage.SnapshotQueue
import FloatProtocols.Storage.SnapshotFresh
import FloatProtocols.Lib.Throttle
import FloatProtocols.Gateway.CadenceRuns
import FloatProtocols.Lib.GrowVec
import FloatProtocols.DynamicBuffer
import FloatProtocols.Hardware.ConfigButton
import FloatProtocols.Sharding.Eviction
import FloatProtocols.Gateway.Flow
import FloatProtocols.Gateway.Queues
import FloatProtocols.Gateway.Conservation
import FloatProtocols.Gateway.Provenance
import FloatProtocols.Gateway.Progress
import FloatProtocols.Codec.InmarsatCrc
import FloatProtocols.Gateway.Load
import FloatProtocols.Gateway.Pipeline
import FloatProtocols.Gateway.Draining
import FloatProtocols.Gateway.TranslatorPool
import FloatProtocols.Sensor.ModbusCrc
import FloatProtocols.Otel.Collector
import FloatProtocols.Reliability.Outage
import FloatProtocols.Reliability.Retry
