import DpuCycles.Legality.Capability
import DpuCycles.Record.Form

namespace DpuCycles

/-! # Records of hardware -/

/-- Members of the constants of a generation. -/
def Hardware.record : Record Hardware :=
  [.of "device" .named (·.device) fun device hardware => { hardware with device },
    .of "name" .text (·.name) fun name hardware => { hardware with name },
    .of "dpu_fclk" .count (·.dpuClock) fun dpuClock hardware => { hardware with dpuClock },
    .of "cmx_fclk" .count (·.cmxClock) fun cmxClock hardware => { hardware with cmxClock },
    .of "cmx_word_size_bytes" .count (·.cmxWordBytes)
      fun cmxWordBytes hardware => { hardware with cmxWordBytes },
    .of "dma_engine_bytes_per_cycle" .count (·.dmaBytesPerCycle)
      fun dmaBytesPerCycle hardware => { hardware with dmaBytesPerCycle },
    .of "cmx_read_ports" .count (·.cmxReadPorts)
      fun cmxReadPorts hardware => { hardware with cmxReadPorts },
    .of "dram_bandwidth_mbps" .count (·.dramBandwidth)
      fun dramBandwidth hardware => { hardware with dramBandwidth },
    .of "dram_latency_ns" .count (·.dramLatency)
      fun dramLatency hardware => { hardware with dramLatency },
    .of "cmx_latency_cmx_clk" .count (·.cmxLatency)
      fun cmxLatency hardware => { hardware with cmxLatency },
    .of "nr_macs" .count (·.macs) fun macs hardware => { hardware with macs },
    .of "fp_to_int_resource_ratio" .count (·.floatCostRatio)
      fun floatCostRatio hardware => { hardware with floatCostRatio },
    .of "nr_ppe" .count (·.postProcessors)
      fun postProcessors hardware => { hardware with postProcessors },
    .of "input_channels_mac" .count (·.channelsPerMac)
      fun channelsPerMac hardware => { hardware with channelsPerMac },
    .of "dpu_per_tile" .count (·.dpusPerTile)
      fun dpusPerTile hardware => { hardware with dpusPerTile }]

/-- Members of the table of a generation. -/
def Capability.record : Record Capability :=
  [.of "device" .named (·.device) fun device table => { table with device },
    .of "valid_operations" (.list .named) (·.operations)
      fun operations table => { table with operations },
    .of "valid_execution_modes" (.list .named) (·.modes) fun modes table => { table with modes },
    .of "valid_swizzlings" (.list .named) (·.swizzlings)
      fun swizzlings table => { table with swizzlings },
    .of "valid_layouts" (.list .named) (·.layouts) fun layouts table => { table with layouts },
    .of "valid_datatypes" (.list .named) (·.dataTypes)
      fun dataTypes table => { table with dataTypes },
    .of "output_write_tile_options" (.list .count) (·.writeTiles)
      fun writeTiles table => { table with writeTiles },
    .of "isi_strategy_options" (.list .named) (·.isiStrategies)
      fun isiStrategies table => { table with isiStrategies },
    .of "cmx_kb" .count (·.cmxKilobytes) fun cmxKilobytes table => { table with cmxKilobytes },
    .of "alignment" .count (·.page) fun page table => { table with page },
    .of "cmx_overhead_bytes" .count (·.cmxOverhead)
      fun cmxOverhead table => { table with cmxOverhead },
    .of "channels_max" .count (·.channelsMax) fun channelsMax table => { table with channelsMax },
    .of "cm_conv_channels_max" .count (·.channelMajorMax)
      fun channelMajorMax table => { table with channelMajorMax },
    .of "spatial_max" .count (·.spatialMax) fun spatialMax table => { table with spatialMax },
    .of "kernel_max" .count (·.kernelMax) fun kernelMax table => { table with kernelMax },
    .of "stride_max" .count (·.strideMax) fun strideMax table => { table with strideMax },
    .of "negative_input_halo" .truth (·.negativeInputHalo)
      fun negativeInputHalo table => { table with negativeInputHalo },
    .of "output_halo" .truth (·.outputHalo) fun outputHalo table => { table with outputHalo }]

end DpuCycles
